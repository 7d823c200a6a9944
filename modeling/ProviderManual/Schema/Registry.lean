import ProviderManual.Source.Walk
import ProviderManual.Text.Table
import ProviderManual.Schema.Fault

/-! The fields are searched for in one walk over the provider's body, which ends once both are known. -/

namespace ProviderManual.Schema

open ProviderManual.Source ProviderManual.Text ProviderManual.Manual

abbrev Entries := Table String

structure Registry where
  dataSources : Except RegistryError Entries
  resources : Except RegistryError Entries

structure Found where
  dataSources : Option Expr
  resources : Option Expr

def Found.isComplete (f : Found) : Bool :=
  f.dataSources.isSome && f.resources.isSome

def assigned (field : String) : Node → Option Expr
  | .expr (.keyValue (.ident key) value) => if key = field then some value else none
  | _ => none

def Found.see (f : Found) (n : Node) : Found where
  dataSources := (assigned (registryField .datasource) n).or f.dataSources
  resources := (assigned (registryField .resource) n).or f.resources

def Found.visit (n : Node) (f : Found) : Flow Unit Found :=
  let f := f.see n
  if f.isComplete then .stop () f else .go f

def findRegistries (provider : Func) : Found :=
  (walkAll Found.visit provider.roots ⟨none, none⟩).state

def entryName : Expr → Except RegistryFault String
  | .basicLit .string raw =>
      match unquote raw with
      | .ok name => .ok name
      | .error e => .error (.invalidKey e)
  | other => .error (.notStringKey other.describe)

def entryConstructor (name : String) : Expr → Except RegistryFault String
  | .call (.ident constructor) _ => .ok constructor
  | .call callee _ => .error (.calleeNotName name callee.describe)
  | other => .error (.notCall name other.describe)

def entryOf : Expr → Except RegistryFault (String × String)
  | .keyValue key value => do
      let name ← entryName key
      let constructor ← entryConstructor name value
      return (name, constructor)
  | other => .error (.notPair other.describe)

def readEntries : Option Expr → Except RegistryFault Entries
  | none => .error .missing
  | some (.composite _ elements) => (elements.mapM entryOf).map Table.ofList
  | some other => .error (.notComposite other.kindName)

def constructorNames (type : ResourceType) (value : Option Expr) :
    Except RegistryError Entries :=
  match readEntries value with
  | .ok entries => .ok entries
  | .error fault => .error ⟨type, fault⟩

namespace Registry

def extract (provider : Func) : Registry :=
  let found := findRegistries provider
  { dataSources := constructorNames .datasource found.dataSources
    resources := constructorNames .resource found.resources }

def get (r : Registry) : ResourceType → Except RegistryError Entries
  | .datasource => r.dataSources
  | .resource => r.resources

def entries? (r : Registry) (type : ResourceType) : Option Entries :=
  (r.get type).toOption

def error? (r : Registry) (type : ResourceType) : Option RegistryError :=
  match r.get type with
  | .ok _ => none
  | .error e => some e

def isReadable (r : Registry) (type : ResourceType) : Bool :=
  (r.entries? type).isSome

def constructor? (r : Registry) (type : ResourceType) (name : String) : Option String :=
  (r.entries? type).bind (·.get? name)

def errors (r : Registry) : List RegistryError :=
  [.datasource, .resource].filterMap r.error?

def size (r : Registry) : Nat :=
  let sizeOf (type : ResourceType) : Nat := (r.entries? type).elim 0 Text.Table.size
  sizeOf .datasource + sizeOf .resource

theorem type_of_get_extract {provider : Func} {type : ResourceType} {e : RegistryError}
    (h : (extract provider).get type = .error e) : e.type = type := by
  have hnames (type : ResourceType) {value : Option Expr}
      (h : constructorNames type value = .error e) : e.type = type := by
    unfold constructorNames at h
    split at h
    · cases h
    · cases h
      rfl
  cases type with
  | datasource => exact hnames .datasource h
  | resource => exact hnames .resource h

theorem get_of_error? {r : Registry} {type : ResourceType} {e : RegistryError}
    (h : r.error? type = some e) : r.get type = .error e := by
  unfold error? at h
  split at h
  · cases h
  · next hget =>
      cases h
      exact hget

end Registry

end ProviderManual.Schema
