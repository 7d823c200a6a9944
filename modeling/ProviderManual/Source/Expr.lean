/-! Node kinds without a meaning of their own are kept as `other`, with all they contain. -/

namespace ProviderManual.Source

inductive LitKind where
  | string
  | int
  | float
  | imaginary
  | char
  deriving DecidableEq, Repr

mutual

inductive Expr where
  | ident (name : String)
  | basicLit (kind : LitKind) (value : String)
  | selector (x : Expr) (sel : String)
  | star (x : Expr)
  | unary (op : String) (x : Expr)
  | composite (type : Option Expr) (elements : List Expr)
  | keyValue (key value : Expr)
  | call (callee : Expr) (args : List Expr)
  | funcLit (body : List Stmt)
  | other (kind : String) (children : List Expr)

inductive Stmt where
  | expr (x : Expr)
  | ret (values : List Expr)
  | assign (lhs rhs : List Expr)
  | block (stmts : List Stmt)
  | other (kind : String) (exprs : List Expr) (stmts : List Stmt)

end

inductive Node where
  | expr (x : Expr)
  | stmt (s : Stmt)

structure Literal where
  type : Option Expr
  elements : List Expr

def Literal.toExpr (l : Literal) : Expr :=
  .composite l.type l.elements

structure ImportSpec where
  name : Option String
  path : String
  deriving DecidableEq, Repr

structure Func where
  name : String
  doc : String
  line : Nat
  results : List Expr
  body : List Stmt

structure File where
  path : String
  package : String
  imports : List ImportSpec
  funcs : List Func

def Func.roots (f : Func) : List Node :=
  f.body.map .stmt

def Expr.ident? : Expr → Option String
  | .ident name => some name
  | _ => none

def Expr.literal? : Expr → Option Literal
  | .composite type elements => some ⟨type, elements⟩
  | _ => none

def LitKind.kindName : LitKind → String
  | .string => "string literal"
  | .int => "integer literal"
  | .float => "float literal"
  | .imaginary => "imaginary literal"
  | .char => "rune literal"

def Expr.kindName : Expr → String
  | .ident _ => "identifier"
  | .basicLit kind _ => kind.kindName
  | .selector _ _ => "selector expression"
  | .star _ => "pointer expression"
  | .unary _ _ => "unary expression"
  | .composite _ _ => "composite literal"
  | .keyValue _ _ => "key-value pair"
  | .call _ _ => "call expression"
  | .funcLit _ => "function literal"
  | .other _ _ => "expression"

def Expr.text : Expr → String
  | .ident name => name
  | .basicLit _ value => value
  | .selector x sel => x.text ++ "." ++ sel
  | .star x => "*" ++ x.text
  | .unary op x => op ++ x.text
  | .composite (some type) _ => type.text ++ "\x7b...\x7d"
  | .composite none _ => "\x7b...\x7d"
  | .keyValue key value => key.text ++ ": " ++ value.text
  | .call callee _ => callee.text ++ "(...)"
  | .funcLit _ => "func(...) \x7b...\x7d"
  | .other kind _ => "<" ++ kind ++ ">"

def Expr.describe (e : Expr) : String :=
  e.kindName ++ " \x60" ++ e.text ++ "\x60"

end ProviderManual.Source
