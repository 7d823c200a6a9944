import ProviderManual.Source.Expr
import ProviderManual.Source.Literal
import ProviderManual.Text.Shown
import ProviderManual.Manual.Attribute

namespace ProviderManual.Schema

open ProviderManual.Source ProviderManual.Manual

inductive Shape where
  | compositeLiteral
  | keyValuePair
  | stringKey
  | identifierOrStringKey
  | stringLiteral
  | booleanLiteral
  | integerLiteral
  | schemaCall
  | compositeLiteralOrCall
  deriving DecidableEq, Repr

def Shape.text : Shape → String
  | .compositeLiteral => "composite literal"
  | .keyValuePair => "key-value pair"
  | .stringKey => "string key"
  | .identifierOrStringKey => "identifier or string key"
  | .stringLiteral => "string literal"
  | .booleanLiteral => "boolean literal"
  | .integerLiteral => "integer literal"
  | .schemaCall => "call to a schema function"
  | .compositeLiteralOrCall => "composite literal or call"

inductive Fault where
  | unexpectedShape (expected : Shape) (found : String)
  | invalidLiteral (error : LiteralError)
  | unresolvedReference (builder : String)
  | cyclicReference (builder : String)
  | schemaFieldNotFound
  | schemaLiteralNotFound (builder : String)
  | nameStart (name start : String)
  | unresolvedConstructor (constructor : String)
  | unknownResource (name : String)
  deriving DecidableEq, Repr

def Fault.shape (expected : Shape) (found : Expr) : Fault :=
  .unexpectedShape expected found.describe

def quotedName (name : String) : String :=
  "\x60" ++ name ++ "\x60"

def Fault.message : Fault → String
  | .unexpectedShape expected found => "expected " ++ expected.text ++ ", found " ++ found
  | .invalidLiteral error => error.message
  | .unresolvedReference builder => "unresolved schema reference " ++ quotedName builder
  | .cyclicReference builder => "cyclic schema reference " ++ quotedName builder
  | .schemaFieldNotFound => "schema field not found"
  | .schemaLiteralNotFound builder => "no schema.Schema literal found in " ++ quotedName builder
  | .nameStart name start =>
      "name " ++ quotedName name ++ " does not start with provider prefix " ++ quotedName start
  | .unresolvedConstructor constructor =>
      "constructor " ++ quotedName constructor ++ " does not return a resource schema"
  | .unknownResource name => quotedName name ++ " is not registered by the provider"

/-- The names of the attributes above and including an attribute, from the top. -/
abbrev Path := List String

def Path.text (path : Path) : String :=
  if path.isEmpty then "<schema>" else ".".intercalate path

structure ResolveError where
  path : Path
  fault : Fault
  deriving DecidableEq, Repr

def ResolveError.text (e : ResolveError) : String :=
  e.path.text ++ ": " ++ e.fault.message

structure ResourceError where
  resource : String
  type : ResourceType
  errors : List ResolveError
  deriving DecidableEq, Repr

def ResourceError.message (e : ResourceError) : String :=
  e.type.name ++ " " ++ e.resource ++
    match e.errors with
    | [] => ""
    | [only] => ": " ++ only.text
    | many => ": " ++ toString many.length ++ " errors" ++
        String.join (many.map fun m => "\n  " ++ m.text)

inductive RegistryFault where
  | missing
  | notComposite (found : String)
  | notPair (found : String)
  | notStringKey (found : String)
  | invalidKey (error : LiteralError)
  | calleeNotName (entry found : String)
  | notCall (entry found : String)
  deriving DecidableEq, Repr

def RegistryFault.message : RegistryFault → String
  | .missing => "field not found in provider"
  | .notComposite found => "expected composite literal, found " ++ found
  | .notPair found => "expected key-value pair, found " ++ found
  | .notStringKey found => "expected string key, found " ++ found
  | .invalidKey error => error.message
  | .calleeNotName entry found =>
      "entry " ++ Text.quoted entry ++ ": expected call to a function name, found call to "
        ++ found
  | .notCall entry found =>
      "entry " ++ Text.quoted entry ++ ": expected call expression, found " ++ found

structure RegistryError where
  type : ResourceType
  fault : RegistryFault
  deriving DecidableEq, Repr

def registryField : ResourceType → String
  | .datasource => "DataSourcesMap"
  | .resource => "ResourcesMap"

def RegistryError.message (e : RegistryError) : String :=
  "malformed " ++ registryField e.type ++ ": " ++ e.fault.message

inductive RunError where
  | missingProvider
  | invalidImport (file : String) (error : LiteralError)
  | registry (error : RegistryError)
  | resource (error : ResourceError)
  deriving DecidableEq, Repr

def RunError.message : RunError → String
  | .missingProvider => "unable to find Provider export func"
  | .invalidImport file error => "invalid import in " ++ file ++ ": " ++ error.message
  | .registry error => error.message
  | .resource error => error.message

end ProviderManual.Schema
