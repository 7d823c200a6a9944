import ProviderManual.Manual.Kind
import ProviderManual.Schema.Registry
import ProviderManual.Schema.Resolver
import ProviderManual.Source.Doc

namespace ProviderManual.Manual

open ProviderManual.Source ProviderManual.Schema

structure Workshop where
  index : Index
  modules : Modules
  provider : String
  namePrefix : String

def suffixOf? (namePrefix name : String) : Option String :=
  let start := namePrefix.toList
  if start.isPrefixOf name.toList then
    some (String.ofList (name.toList.drop start.length))
  else none

def Workshop.build (w : Workshop) (name : String) (type : ResourceType) (d : Decl) :
    Except ResourceError Resource :=
  let fail (f : Fault) : Except ResourceError Resource := .error ⟨name, type, [⟨[], f⟩]⟩
  match suffixOf? w.namePrefix name with
  | none => fail (.nameStart name w.namePrefix)
  | some suffix =>
      match findSchemaField d.func.roots with
      | .error f => fail f
      | .ok none => fail .schemaFieldNotFound
      | .ok (some l) =>
          match resolve w.index w.modules l.elements with
          | .error es => .error ⟨name, type, es⟩
          | .ok attributes => .ok {
              provider := w.provider
              name := name
              nameSuffix := suffix
              shortDescription := ""
              description := docDescription d.func.doc
              type := type
              attributes := attributes }

structure Target where
  type : ResourceType
  name : String
  constructor : Option String
  deriving DecidableEq, Repr

def Workshop.buildTarget (w : Workshop) (t : Target) : Except ResourceError Resource :=
  let fail (f : Fault) : Except ResourceError Resource := .error ⟨t.name, t.type, [⟨[], f⟩]⟩
  match t.constructor with
  | none => fail (.unknownResource t.name)
  | some constructor =>
      match w.index.resource? constructor with
      | none => fail (.unresolvedConstructor constructor)
      | some d => w.build t.name t.type d

structure Selection where
  names : List String
  kind : KindFilter
  deriving DecidableEq, Repr

def firstOccurrences : List String → List String
  | [] => []
  | name :: names => name :: (firstOccurrences names).filter (· ≠ name)

def allTargets (r : Registry) (type : ResourceType) : List Target :=
  match r.entries? type with
  | some entries => entries.entries.map fun e => ⟨type, e.1, some e.2⟩
  | none => []

def namedTargets (r : Registry) (names : List String) (type : ResourceType) : List Target :=
  names.filterMap fun name => (r.constructor? type name).map fun c => ⟨type, name, some c⟩

def unknownNames (r : Registry) (types : List ResourceType) (names : List String) : List String :=
  if types.all r.isReadable then
    names.filter fun name => types.all fun t => (r.constructor? t name).isNone
  else []

def unknownTargets (r : Registry) (types : List ResourceType) (names : List String) :
    List Target :=
  match types with
  | [] => []
  | first :: _ => (unknownNames r types names).map fun name => ⟨first, name, none⟩

def select (r : Registry) (s : Selection) : List Target :=
  let types := s.kind.types
  match s.names with
  | [] => types.flatMap (allTargets r)
  | names =>
      let names := firstOccurrences names
      types.flatMap (namedTargets r names) ++ unknownTargets r types names

structure Generator where
  provider : String
  namePrefix : String
  modules : Modules
  scan : ScanMode
  keepGoing : Bool
  parallel : Bool
  deriving DecidableEq, Repr

structure Report where
  resources : List Resource
  failures : List ResourceError
  registryFailures : List RegistryError

def Report.isSuccess (r : Report) : Bool :=
  r.failures.isEmpty && r.registryFailures.isEmpty

namespace Generator

def ofProvider (provider : String) : Generator where
  provider := provider
  namePrefix := provider ++ "_"
  modules := .standard
  scan := .first
  keepGoing := true
  parallel := false

def index (g : Generator) (files : List File) : Except RunError (Index × Registry) :=
  match Index.build g.modules g.scan files with
  | .error e => .error e
  | .ok index =>
      match index.provider with
      | none => .error .missingProvider
      | some p => .ok (index, .extract p.func)

def workshop (g : Generator) (index : Index) : Workshop :=
  ⟨index, g.modules, g.provider, g.namePrefix⟩

def record (g : Generator) (report : Report) :
    Except ResourceError Resource → Except RunError Report
  | .ok r => .ok { report with resources := report.resources ++ [r] }
  | .error e =>
      if g.keepGoing then .ok { report with failures := report.failures ++ [e] }
      else .error (.resource e)

def checkRegistries (g : Generator) (r : Registry) (types : List ResourceType) :
    Except RunError Report :=
  match types.filterMap r.error?, g.keepGoing with
  | e :: _, false => .error (.registry e)
  | es, _ => .ok ⟨[], [], es⟩

def runInTurn (g : Generator) (w : Workshop) (report : Report) (targets : List Target) :
    Except RunError Report :=
  targets.foldlM (fun report t => g.record report (w.buildTarget t)) report

def runAtOnce (g : Generator) (w : Workshop) (report : Report) (targets : List Target) :
    Except RunError Report :=
  (targets.map w.buildTarget).foldlM g.record report

def generate (g : Generator) (files : List File) (s : Selection) : Except RunError Report :=
  match g.index files with
  | .error e => .error e
  | .ok (index, registry) =>
      match g.checkRegistries registry s.kind.types with
      | .error e => .error e
      | .ok report =>
          let run := if g.parallel then g.runAtOnce else g.runInTurn
          run (g.workshop index) report (select registry s)

end Generator

end ProviderManual.Manual
