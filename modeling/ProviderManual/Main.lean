import ProviderManual.CommandLine.Run

namespace ProviderManual.CommandLine

def absolutePath (p : Files.Place) : String :=
  "/" ++ "/".intercalate p

def takeIn (listing : Bool) (t : Files.Tree) (p : Files.Place) : IO Files.Tree := do
  let path := absolutePath p
  let names : Option (List String) ← try
      let found ← (← IO.FS.realPath path).readDir
      pure (some (found.toList.map (·.fileName)))
    catch _ => pure none
  match names with
  | some names =>
      let t := t.add p .directory
      if listing then names.foldlM (fun t name => takeFile t (p ++ [name])) t else return t
  | none => takeFile t p
where
  takeFile (t : Files.Tree) (p : Files.Place) : IO Files.Tree := do
    try
      return t.add p (.file (← IO.FS.readBinFile (absolutePath p)))
    catch _ => return t

def takeInPath (t : Files.Tree) (path : String) : IO Files.Tree := do
  let places := t.placesOf path
  let t ← places.dropLast.foldlM (takeIn false) t
  match places.getLast? with
  | some p => takeIn true t p
  | none => return t

def usage : String :=
  "Usage: schemadoc [-v] generate [path] [-c config] [-r resource]... [-k kind] [-o output]\n"
    ++ "           [-t template] [-f format] [--scan packages] [--fail-fast] [--parallel] [--dry-run]\n"
    ++ "       schemadoc [-v] list [path] [-c config] [-k kind]\n"

def wantsColor : IO Bool := do
  let forced ← IO.getEnv "CLICOLOR_FORCE"
  if forced.any (· ≠ "0") then return true
  if (← IO.getEnv "NO_COLOR").isSome then return false
  (← IO.getStdout).isTty

def runInvocation (i : Invocation) : IO UInt32 := do
  let here := Files.names (← IO.currentDir).toString |>.filter (!Files.Tree.stays ·)
  let bare : Files.Tree := Files.Tree.add ⟨[], here⟩ here .directory
  let t ← i.command.configPaths.foldlM takeInPath bare
  let t ← (i.command.furtherPaths t).foldlM takeInPath t
  let o := i.command.run (← wantsColor) t
  for (p, bytes) in t.changes o.files do
    IO.FS.createDirAll (absolutePath p.dropLast)
    IO.FS.writeBinFile (absolutePath p) bytes
  IO.print o.output
  for c in o.complaints do
    IO.eprintln ("Error: " ++ c.message)
  return o.exitCode.toUInt32

def runArguments (arguments : List String) : IO UInt32 := do
  match Invocation.read arguments with
  | .ok i =>
      try runInvocation i
      catch e =>
        IO.eprintln ("Error: " ++ toString e)
        return 2
  | .error .displayVersion =>
      IO.println ("schemadoc " ++ Manual.toolVersion)
      return 0
  | .error .displayHelp =>
      IO.print usage
      return 0
  | .error e =>
      IO.eprint usage
      return e.exitCode.toUInt32

end ProviderManual.CommandLine

def main (arguments : List String) : IO UInt32 :=
  ProviderManual.CommandLine.runArguments arguments
