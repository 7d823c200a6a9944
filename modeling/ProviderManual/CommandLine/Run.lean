import ProviderManual.CommandLine.Arguments
import ProviderManual.CommandLine.Summary
import ProviderManual.Manual.Config
import ProviderManual.Manual.Page
import ProviderManual.Source.Package

/-! Everything is read before the first page is written. -/

namespace ProviderManual.CommandLine

open ProviderManual.Schema ProviderManual.Manual ProviderManual.Source

inductive Complaint where
  | format (word : String)
  | unreadableConfig (path : String) (fault : Option Files.Fault)
  | config (fault : Config.Fault)
  | unreadableTemplate (path : String) (fault : Files.Fault)
  | template (path : String)
  | package (fault : PackageFault)
  | run (error : RunError)
  | page (fault : PageFault)
  | registry (error : RegistryError)
  deriving DecidableEq, Repr

def Complaint.message : Complaint → String
  | .format word =>
      "invalid format " ++ Text.quoted word ++ ", must be 'markdown' or 'json'"
  | .unreadableConfig path (some fault) => "parsing config " ++ path ++ ": " ++ fault.message
  | .unreadableConfig path none => "parsing config " ++ path ++ ": not a valid configuration"
  | .config fault => "invalid config: " ++ fault.message
  | .unreadableTemplate path fault => "reading template " ++ path ++ ": " ++ fault.message
  | .template path => "template " ++ path ++ ": not a valid template"
  | .package fault => fault.message
  | .run error => error.message
  | .page fault => fault.message
  | .registry error => error.message

structure Outcome where
  exitCode : Nat
  output : String
  complaints : List Complaint
  files : Files.Tree

def configNames : List String :=
  ["schemadoc.yaml", ".schemadoc.yaml"]

def configPath? (t : Files.Tree) (named : Option String) : Option String :=
  match named with
  | some path => some path
  | none => (configNames.map (Files.join ".")).find? t.isFile

def readConfig (t : Files.Tree) (path : String) : Except Complaint Config :=
  match t.readText path with
  | .error f => .error (.unreadableConfig path (some f))
  | .ok text =>
      match Config.parse text with
      | none => .error (.unreadableConfig path none)
      | some c => .ok c

def loadConfig (t : Files.Tree) (named : Option String) : Except Complaint Config := do
  let c ← match configPath? t named with
    | none => pure .standard
    | some path => readConfig t path
  match c.fault? with
  | some f => .error (.config f)
  | none => return c

def GenerateArguments.override (a : GenerateArguments) (c : Config) : Config :=
  { c with
    source := a.path.getD c.source
    output := a.output.getD c.output
    template := a.template.or c.template
    resources := if a.resources.isEmpty then c.resources else a.resources
    kind := a.kind.getD c.kind
    scan := a.scan.getD c.scan
    keepGoing := c.keepGoing && !a.failFast
    parallel := c.parallel || a.parallel }

def loadTemplate (t : Files.Tree) : Option String → Except Complaint (List Template.Node)
  | none =>
      match Template.parse standardTemplate with
      | some nodes => .ok nodes
      | none => .error (.template "")
  | some path =>
      match t.readText path with
      | .error f => .error (.unreadableTemplate path f)
      | .ok text =>
          match Template.parse text with
          | some nodes => .ok nodes
          | none => .error (.template path)

def loadPackage (t : Files.Tree) (c : Config) : Except Complaint (List File) :=
  match readPackage t c.excludes c.source with
  | .error f => .error (.package f)
  | .ok files => .ok files

structure Plan where
  config : Config
  template : List Template.Node
  report : Report

def plan (t : Files.Tree) (a : GenerateArguments) : Except Complaint Plan := do
  if a.format ≠ "markdown" ∧ a.format ≠ "json" then .error (.format a.format)
  let config := a.override (← loadConfig t a.config)
  let template ← loadTemplate t config.template
  let files ← loadPackage t config
  match config.generator.generate files config.selection with
  | .error e => .error (.run e)
  | .ok report => return { config := config, template := template, report := report }

def GenerateArguments.writes (a : GenerateArguments) : Bool :=
  !a.dryRun && a.format = "markdown"

def Plan.output (p : Plan) (color : Bool) (a : GenerateArguments) (written : List String) : String :=
  if a.format = "json" then (p.report.toJson p.config.provider).pretty ++ "\n"
  else summary color p.config.source p.config.output a.dryRun p.report written

def Plan.exitCode (p : Plan) : Nat :=
  if p.report.isSuccess then 0 else 1

def stopped (t : Files.Tree) (c : Complaint) : Outcome :=
  ⟨2, "", [c], t⟩

def runGenerate (color : Bool) (t : Files.Tree) (a : GenerateArguments) : Outcome :=
  match plan t a with
  | .error c => stopped t c
  | .ok p =>
      let resources := if a.writes then p.report.resources else []
      match writePages p.template p.config.output t resources with
      | (t, .error f) => stopped t (.page f)
      | (t, .ok written) => ⟨p.exitCode, p.output color a written, [], t⟩

def listed (t : Files.Tree) (a : ListArguments) :
    Except Complaint (Registry × List ResourceType) := do
  let config ← loadConfig t a.config
  let config := { config with source := a.path.getD config.source }
  let files ← loadPackage t config
  match config.generator.index files with
  | .error e => .error (.run e)
  | .ok (_, registry) => return (registry, (a.kind.getD config.kind).types)

def runList (t : Files.Tree) (a : ListArguments) : Outcome :=
  match listed t a with
  | .error c => stopped t c
  | .ok (registry, types) =>
      let errors := types.filterMap registry.error?
      { exitCode := if errors.isEmpty then 0 else 1
        output := String.join (types.map fun type => listText type (registry.get type))
        complaints := errors.map .registry
        files := t }

def Command.run (color : Bool) (t : Files.Tree) : Command → Outcome
  | .generate a => runGenerate color t a
  | .list a => runList t a

def Command.configPaths (c : Command) : List String :=
  let named := match c with
    | .generate a => a.config
    | .list a => a.config
  match named with
  | some path => [path]
  | none => configNames.map (Files.join ".")

def Command.furtherPaths (t : Files.Tree) : Command → List String
  | .generate a =>
      match loadConfig t a.config with
      | .error _ => []
      | .ok c =>
          let c := a.override c
          [c.source] ++ c.template.toList ++
            [ResourceType.datasource, .resource].map fun type => Files.join c.output type.dir
  | .list a =>
      match loadConfig t a.config with
      | .error _ => []
      | .ok c => [a.path.getD c.source]

end ProviderManual.CommandLine
