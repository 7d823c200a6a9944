import ProviderManual.Schema.Fault

namespace ProviderManual.Schema

open ProviderManual.Source

def liftLiteral {α : Type} : Except LiteralError α → Except Fault α
  | .ok a => .ok a
  | .error e => .error (.invalidLiteral e)

def keyName : Expr → Except Fault String
  | .ident name => .ok name
  | .basicLit .string raw => liftLiteral (unquote raw)
  | other => .error (.shape .identifierOrStringKey other)

/-- The value of the first element with a key; the elements up to it have to be well-formed. -/
def field? (name : String) : List Expr → Except Fault (Option Expr)
  | [] => .ok none
  | .keyValue key value :: rest =>
      match keyName key with
      | .error e => .error e
      | .ok k => if k = name then .ok (some value) else field? name rest
  | other :: _ => .error (.shape .keyValuePair other)

def stringValue : Expr → Except Fault String
  | .basicLit .string raw => liftLiteral (unquote raw)
  | other => .error (.shape .stringLiteral other)

def boolValue : Expr → Except Fault Bool
  | .ident "true" => .ok true
  | .ident "false" => .ok false
  | other => .error (.shape .booleanLiteral other)

def intValue : Expr → Except Fault Int
  | .basicLit .int raw => liftLiteral (parseInt raw)
  | other => .error (.shape .integerLiteral other)

def fieldOr {α : Type} (default : α) (value : Expr → Except Fault α) (name : String)
    (elements : List Expr) : Except Fault α :=
  match field? name elements with
  | .error e => .error e
  | .ok none => .ok default
  | .ok (some x) => value x

def stringField (name : String) (elements : List Expr) : Except Fault String :=
  fieldOr "" stringValue name elements

def boolField (name : String) (elements : List Expr) : Except Fault Bool :=
  fieldOr false boolValue name elements

def intField (name : String) (elements : List Expr) : Except Fault Int :=
  fieldOr 0 intValue name elements

end ProviderManual.Schema
