import ProviderManual.Manual.Document
import ProviderManual.Text.Pieces

namespace ProviderManual.CommandLine

open ProviderManual.Schema ProviderManual.Manual

inductive Style where
  | heading
  | title
  | faint
  | good
  | bad
  | link
  deriving DecidableEq, Repr

def Style.parameters : Style → String
  | .heading => "1;36"
  | .title => "1"
  | .faint => "2"
  | .good => "32"
  | .bad => "31"
  | .link => "34"

def escapeSequence (parameters : String) : String :=
  "\x1b[" ++ parameters ++ "m"

def painted (color : Bool) (style : Style) (s : String) : String :=
  if color then
    let begin := escapeSequence style.parameters
    let reset := escapeSequence "0"
    begin ++ String.ofList (Text.replaceAll reset.toList (reset ++ begin).toList s.toList) ++ reset
  else s

def padded (width : Nat) (s : String) : String :=
  s ++ String.ofList (List.replicate (width - s.length) ' ')

def sectionText (color : Bool) (title : String) (entries : List String) : String :=
  if entries.isEmpty then ""
  else
    "  " ++ painted color .title title ++ " (" ++ toString entries.length ++ "):\n\n"
      ++ String.join entries ++ "\n"

def entryLine (color : Bool) (style : Style) (mark : String) (type : ResourceType) (rest : String) :
    String :=
  "    " ++ painted color style mark ++ " " ++ painted color .faint (padded 12 type.name) ++ rest
    ++ "\n"

def reasonLine (color : Bool) (reason : String) : String :=
  "            " ++ painted color .faint reason ++ "\n"

def generatedLines (color : Bool) : List Resource → List String → List String
  | [], _ => []
  | r :: rs, [] => entryLine color .good "✓" r.type r.name :: generatedLines color rs []
  | r :: rs, path :: paths =>
      entryLine color .good "✓" r.type (r.name ++ "  " ++ painted color .link path)
        :: generatedLines color rs paths

def registryFailureLines (color : Bool) (e : RegistryError) : String :=
  entryLine color .bad "✗" e.type (registryField e.type) ++ reasonLine color e.fault.message

def failureLines (color : Bool) (e : ResourceError) : String :=
  entryLine color .bad "✗" e.type e.resource
    ++ String.join (e.errors.map fun m => reasonLine color m.text)

def summary (color : Bool) (source output : String) (dryRun : Bool) (r : Report)
    (written : List String) : String :=
  let label := if dryRun then painted color .faint (output ++ " (dry run)") else output
  "\n  " ++ painted color .heading "schemadoc" ++ " v" ++ toolVersion ++ "\n\n"
    ++ "  " ++ painted color .faint "Source: " ++ source ++ "\n"
    ++ "  " ++ painted color .faint "Output: " ++ label ++ "\n\n"
    ++ sectionText color "Generated" (generatedLines color r.resources written)
    ++ sectionText color "Unreadable registries"
        (r.registryFailures.map (registryFailureLines color))
    ++ sectionText color "Failed" (r.failures.map (failureLines color))
    ++ "  " ++ (if r.isSuccess then painted color .good "PASSED" else painted color .bad "FAILED")
    ++ "\n\n"

def listHeading : ResourceType → String
  | .datasource => "Data sources"
  | .resource => "Resources"

def listText (type : ResourceType) : Except RegistryError Entries → String
  | .ok entries =>
      listHeading type ++ " (" ++ toString entries.size ++ "):\n"
        ++ String.join (entries.entries.map fun (name, constructor) =>
          "  " ++ padded 40 name ++ " " ++ constructor ++ "\n")
        ++ "\n"
  | .error _ => listHeading type ++ ": unreadable\n\n"

end ProviderManual.CommandLine
