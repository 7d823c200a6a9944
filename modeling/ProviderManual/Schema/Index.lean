import ProviderManual.Source.Expr
import ProviderManual.Source.Literal
import ProviderManual.Text.Table
import ProviderManual.Schema.Fault

/-! A function is known by its first result type, which its own file's imports explain. -/

namespace ProviderManual.Schema

open ProviderManual.Source ProviderManual.Text

abbrev ImportMap := Table String

def dropTrailing (c : Char) (cs : List Char) : List Char :=
  (cs.reverse.dropWhile (· = c)).reverse

def lastSegment (path : String) : String :=
  String.ofList
    ((dropTrailing '/' path.toList).reverse.takeWhile (· ≠ '/')).reverse

def boundName (name? : Option String) (path : String) : String :=
  match name? with
  | some name => if name = "" then lastSegment path else name
  | none => lastSegment path

def addImport (imports : ImportMap) (spec : ImportSpec) : Except LiteralError ImportMap :=
  if spec.name = some "_" then .ok imports
  else do
    let path ← unquote spec.path
    return imports.insert (boundName spec.name path) path

/-- The last import of a name binds it; blank imports bind none. -/
def ImportMap.ofSpecs (specs : List ImportSpec) : Except LiteralError ImportMap :=
  specs.foldlM addImport Table.empty

def ImportMap.isQualified (imports : ImportMap) (module symbol : String) : Expr → Bool
  | .selector (.ident name) sel => sel = symbol && imports.get? name = some module
  | _ => false

structure Modules where
  schema : String
  provider : String
  deriving DecidableEq, Repr

def Modules.standard : Modules where
  schema := "github.com/hashicorp/terraform/helper/schema"
  provider := "github.com/hashicorp/terraform/terraform"

/-- Which files of a directory take part: those of the first file's package, or all. -/
inductive ScanMode where
  | first
  | all
  deriving DecidableEq, Repr

inductive DeclClass where
  | provider
  | resource
  | schema
  | none
  deriving DecidableEq, Repr

def pointee : Expr → Expr
  | .star x => x
  | x => x

def classify (f : Func) (imports : ImportMap) (modules : Modules) : DeclClass :=
  match f.results with
  | [] => .none
  | result :: _ =>
      if imports.isQualified modules.schema "Resource" (pointee result) then .resource
      else if imports.isQualified modules.schema "Schema" (pointee result) then .schema
      else if imports.isQualified modules.provider "ResourceProvider" (pointee result) then
        .provider
      else .none

structure Decl where
  func : Func
  imports : ImportMap
  file : String

structure Index where
  resources : Table Decl
  schemas : Table Decl
  provider : Option Decl

namespace Index

def empty : Index :=
  ⟨Table.empty, Table.empty, none⟩

/-- A later declaration takes the place of an earlier one of its class and name. -/
def add (modules : Modules) (index : Index) (d : Decl) : Index :=
  match classify d.func d.imports modules with
  | .resource => { index with resources := index.resources.insert d.func.name d }
  | .schema => { index with schemas := index.schemas.insert d.func.name d }
  | .provider => { index with provider := some d }
  | .none => index

def addFile (modules : Modules) (index : Index) (f : File) : Except RunError Index :=
  match ImportMap.ofSpecs f.imports with
  | .error e => .error (.invalidImport f.path e)
  | .ok imports =>
      .ok ((f.funcs.map fun g => Decl.mk g imports f.path).foldl (add modules) index)

def participants (scan : ScanMode) (files : List File) : List File :=
  match scan, files with
  | .all, files => files
  | .first, [] => []
  | .first, f :: fs => (f :: fs).filter (·.package = f.package)

def build (modules : Modules) (scan : ScanMode) (files : List File) : Except RunError Index :=
  (participants scan (sortOn File.path files)).foldlM (addFile modules) empty

def resource? (index : Index) (name : String) : Option Decl :=
  index.resources.get? name

def schema? (index : Index) (name : String) : Option Decl :=
  index.schemas.get? name

end Index

end ProviderManual.Schema
