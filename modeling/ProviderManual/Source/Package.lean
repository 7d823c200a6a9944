import ProviderManual.Files.Tree
import ProviderManual.Source.Grammar.Declarations
import ProviderManual.Source.Lower
import ProviderManual.Text.Utf8

namespace ProviderManual.Source

structure ReadError where
  path : String
  fault : Text.Utf8.Fault
  deriving DecidableEq, Repr

def ReadError.message (e : ReadError) : String :=
  e.path ++ " is not valid UTF-8: " ++ e.fault.message

def File.read (path : String) (bytes : ByteArray) : Except ReadError (File × Bool) :=
  match Text.decodeUtf8 bytes with
  | .error fault => .error ⟨path, fault⟩
  | .ok source =>
      let (nodes, broken) := parse source
      .ok (.ofNodes path nodes, broken)

inductive PackageFault where
  | unreachable (path : String) (fault : Files.Fault)
  | unreadable (path : String) (fault : Files.Fault)
  | noSources (path : String)
  | notText (error : ReadError)
  deriving DecidableEq, Repr

def PackageFault.message : PackageFault → String
  | .unreachable path fault => "IO error for operation on " ++ path ++ ": " ++ fault.message
  | .unreadable path fault => "reading " ++ path ++ ": " ++ fault.message
  | .noSources path => "no Go source files found in " ++ path
  | .notText error => error.message

def isSourceName (name : String) : Bool :=
  let cs := name.toList
  ".go".toList.isSuffixOf cs && !"_test.go".toList.isSuffixOf cs

/-- The paths of a package's source files; a path that leads to a file stands for that file alone. -/
def sourcePaths (t : Files.Tree) (excludes : String → Bool) (path : String) :
    Except PackageFault (List String) :=
  match t.locate path with
  | .error f => .error (.unreachable path f)
  | .ok p =>
      let candidates :=
        match t.find? p with
        | some (.file _) => [path]
        | _ => (t.filesIn p).map (Files.join path)
      .ok (candidates.filter fun c => isSourceName (Files.lastName c) && !excludes c)

def readSource (t : Files.Tree) (path : String) : Except PackageFault File :=
  match t.read path with
  | .error f => .error (.unreadable path f)
  | .ok bytes =>
      match File.read path bytes with
      | .error e => .error (.notText e)
      | .ok (file, _) => .ok file

def readPackage (t : Files.Tree) (excludes : String → Bool) (path : String) :
    Except PackageFault (List File) :=
  match sourcePaths t excludes path with
  | .error f => .error f
  | .ok [] => .error (.noSources path)
  | .ok paths => paths.mapM (readSource t)

end ProviderManual.Source
