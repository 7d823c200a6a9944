import ProviderManual.Manual.Kind

/-! An option's value is looked at when the next argument comes, so an argument nobody knows is reported first. -/

namespace ProviderManual.CommandLine

open ProviderManual.Schema ProviderManual.Manual

inductive UsageError where
  | displayHelp
  | displayVersion
  | missingArguments
  | missingSubcommand
  | invalidSubcommand
  | unknownArgument
  | argumentConflict
  | invalidValue
  | valueValidation
  | tooManyValues
  deriving DecidableEq, Repr

namespace UsageError

def name : UsageError → String
  | displayHelp => "DisplayHelp"
  | displayVersion => "DisplayVersion"
  | missingArguments => "DisplayHelpOnMissingArgumentOrSubcommand"
  | missingSubcommand => "MissingSubcommand"
  | invalidSubcommand => "InvalidSubcommand"
  | unknownArgument => "UnknownArgument"
  | argumentConflict => "ArgumentConflict"
  | invalidValue => "InvalidValue"
  | valueValidation => "ValueValidation"
  | tooManyValues => "TooManyValues"

def exitCode : UsageError → Nat
  | displayHelp | displayVersion => 0
  | _ => 2

end UsageError

inductive Flag where
  | verbose
  | help
  | version
  | failFast
  | parallel
  | dryRun
  deriving DecidableEq, Repr

inductive Setting where
  | config
  | resource
  | kind
  | output
  | template
  | format
  | scan
  deriving DecidableEq, Repr

inductive Switch where
  | flag (f : Flag)
  | setting (s : Setting)
  deriving DecidableEq, Repr

structure Form where
  short : Char → Option Switch
  long : String → Option Switch
  takesPath : Bool

namespace Form

def root : Form where
  short
    | 'v' => some (.flag .verbose)
    | 'h' => some (.flag .help)
    | 'V' => some (.flag .version)
    | _ => none
  long
    | "verbose" => some (.flag .verbose)
    | "help" => some (.flag .help)
    | "version" => some (.flag .version)
    | _ => none
  takesPath := false

def list : Form where
  short
    | 'v' => some (.flag .verbose)
    | 'h' => some (.flag .help)
    | 'c' => some (.setting .config)
    | 'k' => some (.setting .kind)
    | _ => none
  long
    | "verbose" => some (.flag .verbose)
    | "help" => some (.flag .help)
    | "config" => some (.setting .config)
    | "kind" => some (.setting .kind)
    | _ => none
  takesPath := true

def generate : Form where
  short
    | 'r' => some (.setting .resource)
    | 'o' => some (.setting .output)
    | 't' => some (.setting .template)
    | 'f' => some (.setting .format)
    | c => list.short c
  long
    | "resource" => some (.setting .resource)
    | "output" => some (.setting .output)
    | "template" => some (.setting .template)
    | "format" => some (.setting .format)
    | "scan" => some (.setting .scan)
    | "fail-fast" => some (.flag .failFast)
    | "parallel" => some (.flag .parallel)
    | "dry-run" => some (.flag .dryRun)
    | name => list.long name
  takesPath := true

end Form

inductive Given where
  | config (path : String)
  | resource (name : String)
  | kind (kind : KindFilter)
  | output (path : String)
  | template (path : String)
  | format (word : String)
  | scan (mode : ScanMode)
  deriving DecidableEq, Repr

def Given.setting : Given → Setting
  | .config _ => .config
  | .resource _ => .resource
  | .kind _ => .kind
  | .output _ => .output
  | .template _ => .template
  | .format _ => .format
  | .scan _ => .scan

def readPath (path : String) : Except UsageError String :=
  if path.isEmpty then .error .invalidValue else .ok path

def Setting.read (value : String) : Setting → Except UsageError Given
  | .config => (readPath value).map .config
  | .resource => .ok (.resource value)
  | .kind =>
      match KindFilter.parse value with
      | .ok k => .ok (.kind k)
      | .error _ => .error .valueValidation
  | .output => (readPath value).map .output
  | .template => (readPath value).map .template
  | .format => .ok (.format value)
  | .scan =>
      match ScanMode.parse value with
      | .ok m => .ok (.scan m)
      | .error _ => .error .valueValidation

inductive Pending where
  | none
  | setting (s : Setting)
  | value (s : Setting) (value : String)
  | path (path : String)
  deriving DecidableEq, Repr

structure Reading where
  verbose : Nat
  flags : List Flag
  given : List Given
  path : Option String
  pending : Pending
  onlyPaths : Bool
  deriving DecidableEq, Repr

namespace Reading

def empty : Reading :=
  ⟨0, [], [], none, .none, false⟩

def take (r : Reading) (s : Setting) (value : String) : Except UsageError Reading :=
  if s ≠ .resource ∧ s ∈ r.given.map Given.setting then .error .argumentConflict
  else (s.read value).map fun g => { r with given := r.given ++ [g] }

def settle (r : Reading) : Except UsageError Reading :=
  let settled := { r with pending := .none }
  match r.pending with
  | .none => .ok r
  | .setting _ => .error .invalidValue
  | .value s value => settled.take s value
  | .path path => (readPath path).map fun path => { settled with path := some path }

def takeFlag (r : Reading) (f : Flag) : Except UsageError Reading := do
  let r ← r.settle
  match f with
  | .help => .error .displayHelp
  | .version => .error .displayVersion
  | .verbose => return { r with verbose := min (r.verbose + 1) 255 }
  | f =>
      if f ∈ r.flags then .error .argumentConflict
      else return { r with flags := f :: r.flags }

def hasPath (r : Reading) : Bool :=
  r.path.isSome ||
    match r.pending with
    | .path _ => true
    | _ => false

def takePath (r : Reading) (form : Form) (path : String) : Except UsageError Reading :=
  if form.takesPath ∧ ¬ r.hasPath then do
    let r ← r.settle
    return { r with pending := .path path }
  else .error .unknownArgument

def takeLetters (form : Form) (r : Reading) : List Char → Except UsageError Reading
  | [] => .ok r
  | c :: cs =>
      match form.short c, cs with
      | none, _ => .error .unknownArgument
      | some (.flag f), cs =>
          match r.takeFlag f with
          | .error e => .error e
          | .ok r => takeLetters form r cs
      | some (.setting s), [] => do return { ← r.settle with pending := .setting s }
      | some (.setting s), '=' :: value => do (← r.settle).take s (String.ofList value)
      | some (.setting s), value => do (← r.settle).take s (String.ofList value)

def takeWord (form : Form) (r : Reading) (word : List Char) : Except UsageError Reading :=
  let name := word.takeWhile (· ≠ '=')
  match form.long (String.ofList name), word.drop name.length with
  | none, _ => .error .unknownArgument
  | some (.flag f), [] => r.takeFlag f
  | some (.flag _), _ :: _ => .error .tooManyValues
  | some (.setting s), [] => do return { ← r.settle with pending := .setting s }
  | some (.setting s), _ :: value => do (← r.settle).take s (String.ofList value)

def step (form : Form) (r : Reading) (argument : String) : Except UsageError Reading :=
  if r.onlyPaths then r.takePath form argument
  else
    match argument.toList with
    | ['-', '-'] => .ok { r with onlyPaths := true }
    | '-' :: '-' :: word => takeWord form r word
    | '-' :: c :: letters => takeLetters form r (c :: letters)
    | _ =>
        match r.pending with
        | .setting s => .ok { r with pending := .value s argument }
        | _ => r.takePath form argument

def ofArguments (form : Form) (arguments : List String) : Except UsageError Reading := do
  (← arguments.foldlM (step form) empty).settle

end Reading

structure GenerateArguments where
  path : Option String
  config : Option String
  resources : List String
  kind : Option KindFilter
  output : Option String
  template : Option String
  format : String
  scan : Option ScanMode
  failFast : Bool
  parallel : Bool
  dryRun : Bool
  deriving DecidableEq, Repr

structure ListArguments where
  path : Option String
  config : Option String
  kind : Option KindFilter
  deriving DecidableEq, Repr

inductive Command where
  | generate (arguments : GenerateArguments)
  | list (arguments : ListArguments)
  deriving DecidableEq, Repr

structure Invocation where
  verbose : Nat
  command : Command
  deriving DecidableEq, Repr

namespace Reading

def config? (r : Reading) : Option String :=
  r.given.findSome? fun | .config path => some path | _ => none

def kind? (r : Reading) : Option KindFilter :=
  r.given.findSome? fun | .kind kind => some kind | _ => none

def generateArguments (r : Reading) : GenerateArguments where
  path := r.path
  config := r.config?
  resources := r.given.filterMap fun | .resource name => some name | _ => none
  kind := r.kind?
  output := r.given.findSome? fun | .output path => some path | _ => none
  template := r.given.findSome? fun | .template path => some path | _ => none
  format := (r.given.findSome? fun | .format word => some word | _ => none).getD "markdown"
  scan := r.given.findSome? fun | .scan mode => some mode | _ => none
  failFast := r.flags.contains .failFast
  parallel := r.flags.contains .parallel
  dryRun := r.flags.contains .dryRun

def listArguments (r : Reading) : ListArguments where
  path := r.path
  config := r.config?
  kind := r.kind?

end Reading

inductive CommandName where
  | generate
  | list
  | help
  deriving DecidableEq, Repr

def CommandName.ofName? : String → Option CommandName
  | "generate" | "gen" => some .generate
  | "list" => some .list
  | "help" => some .help
  | _ => none

def helpOn : List String → UsageError
  | [] => .displayHelp
  | [name] => if (CommandName.ofName? name).isSome then .displayHelp else .invalidSubcommand
  | _ => .invalidSubcommand

/-- Reads a command with its arguments; flags given before the command hold where it has none of its own. -/
def readCommand (before : Reading) (name : CommandName) (arguments : List String) :
    Except UsageError Invocation :=
  let verboseOf (r : Reading) := if r.verbose = 0 then before.verbose else r.verbose
  match name with
  | .help => .error (helpOn arguments)
  | .generate => do
      let r ← Reading.ofArguments .generate arguments
      return ⟨verboseOf r, .generate r.generateArguments⟩
  | .list => do
      let r ← Reading.ofArguments .list arguments
      return ⟨verboseOf r, .list r.listArguments⟩

def readFrom (before : Reading) : List String → Except UsageError Invocation
  | [] => .error (if before.verbose = 0 then .missingArguments else .missingSubcommand)
  | argument :: rest =>
      match before.onlyPaths, CommandName.ofName? argument with
      | false, some name => readCommand before name rest
      | true, some _ => .error .unknownArgument
      | onlyPaths, none =>
          let looksLikeName := onlyPaths || argument = "-" || argument.toList.head? ≠ some '-'
          if looksLikeName then .error .invalidSubcommand
          else
            match before.step .root argument with
            | .error e => .error e
            | .ok before => readFrom before rest

def Invocation.read (arguments : List String) : Except UsageError Invocation :=
  readFrom .empty arguments

end ProviderManual.CommandLine
