import ProviderManual.Glob.Read
import ProviderManual.Manual.Generate
import ProviderManual.Yaml.Read

namespace ProviderManual.Manual

open ProviderManual.Schema ProviderManual.Yaml

structure Config where
  provider : String
  namePrefix : Option String
  source : String
  output : String
  template : Option String
  scan : ScanMode
  keepGoing : Bool
  parallel : Bool
  modules : Modules
  resources : List String
  kind : KindFilter
  exclude : List String
  deriving DecidableEq, Repr

namespace Config

def standard : Config where
  provider := "azurerm"
  namePrefix := none
  source := "azurerm"
  output := "website/docs"
  template := none
  scan := .first
  keepGoing := true
  parallel := false
  modules := .standard
  resources := []
  kind := .all
  exclude := []

end Config

def textOf? : Node → Option String
  | .scalar s _ => some s
  | _ => none

def optionalTextOf? : Node → Option (Option String)
  | .scalar s true =>
      if ["", "~", "null", "Null", "NULL"].contains s then some none else some (some s)
  | .scalar s false => some (some s)
  | _ => none

def boolOf? : Node → Option Bool
  | .scalar s true =>
      if ["true", "True", "TRUE"].contains s then some true
      else if ["false", "False", "FALSE"].contains s then some false
      else none
  | _ => none

def textsOf? : Node → Option (List String)
  | .sequence items => items.mapM textOf?
  | .scalar "" true => some []
  | _ => none

def fieldsOf? : Node → Option (List (String × Node))
  | .mapping entries => entries.mapM fun (key, value) => do return (← textOf? key, value)
  | .scalar "" true => some []
  | _ => none

def field? {α : Type} (fields : List (String × Node)) (name : String) (read : Node → Option α)
    (default : α) : Option α :=
  match fields.filter (·.1 = name) with
  | [] => some default
  | [(_, value)] => read value
  | _ => none

def modulesOf? (n : Node) : Option Modules := do
  let fields ← fieldsOf? n
  return { schema := ← field? fields "schema" textOf? Modules.standard.schema
           provider := ← field? fields "provider" textOf? Modules.standard.provider }

namespace Config

def ofNode? (n : Node) : Option Config := do
  let fields ← fieldsOf? n
  let named {α : Type} (read : String → Option α) (n : Node) : Option α := (textOf? n).bind read
  return {
    provider := ← field? fields "provider" textOf? standard.provider
    namePrefix := ← field? fields "prefix" optionalTextOf? none
    source := ← field? fields "source" textOf? standard.source
    output := ← field? fields "output" textOf? standard.output
    template := ← field? fields "template" optionalTextOf? none
    scan := ← field? fields "scan" (named ScanMode.ofName?) standard.scan
    keepGoing := ← field? fields "keep_going" boolOf? standard.keepGoing
    parallel := ← field? fields "parallel" boolOf? standard.parallel
    modules := ← field? fields "modules" modulesOf? standard.modules
    resources := ← field? fields "resources" textsOf? []
    kind := ← field? fields "kind" (named KindFilter.ofName?) standard.kind
    exclude := ← field? fields "exclude" textsOf? [] }

def parse (text : String) : Option Config := do
  match ← Yaml.parse text with
  | none => return standard
  | some n => ofNode? n

def nameStart (c : Config) : String :=
  c.namePrefix.getD (c.provider ++ "_")

def excludes (c : Config) (path : String) : Bool :=
  c.exclude.any fun text =>
    match Glob.Pattern.parse text with
    | .ok p => p.isMatch path
    | .error _ => false

def generator (c : Config) : Generator where
  provider := c.provider
  namePrefix := c.nameStart
  modules := c.modules
  scan := c.scan
  keepGoing := c.keepGoing
  parallel := c.parallel

def selection (c : Config) : Selection :=
  ⟨c.resources, c.kind⟩

inductive Fault where
  | emptyProvider
  | emptyModule
  | pattern (error : Glob.Error)
  deriving DecidableEq, Repr

def Fault.message : Fault → String
  | .emptyProvider => "provider name must not be empty"
  | .emptyModule => "schema and provider module paths must not be empty"
  | .pattern error =>
      "invalid exclude pattern " ++ Text.quoted error.text ++ ": " ++ error.message

def badPattern? : List String → Option Glob.Error
  | [] => none
  | text :: texts =>
      match Glob.Pattern.parse text with
      | .ok _ => badPattern? texts
      | .error e => some e

def fault? (c : Config) : Option Fault :=
  if (Text.trim c.provider.toList).isEmpty then some .emptyProvider
  else if c.modules.schema.isEmpty || c.modules.provider.isEmpty then some .emptyModule
  else (badPattern? c.exclude).map .pattern

end Config

end ProviderManual.Manual
