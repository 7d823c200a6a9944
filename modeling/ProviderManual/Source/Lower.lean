import ProviderManual.Source.Expr
import ProviderManual.Source.Tree
import ProviderManual.Source.Doc

namespace ProviderManual.Source

def textIn (role : Role) (children : List Tree) : String :=
  match children.find? (·.role = role) with
  | some t => t.text
  | none => ""

mutual

def Tree.toExpr : Tree → Expr
  | .node kind _ text children =>
      match kind with
      | .identifier | .fieldIdentifier | .packageIdentifier | .typeIdentifier | .blankIdentifier
      | .trueName | .falseName | .nil | .iota => .ident text
      | .interpretedStringLiteral | .rawStringLiteral => .basicLit .string text
      | .intLiteral => .basicLit .int text
      | .floatLiteral => .basicLit .float text
      | .imaginaryLiteral => .basicLit .imaginary text
      | .runeLiteral => .basicLit .char text
      | .selectorExpression =>
          match exprIn .operand children with
          | some x => .selector x (textIn .field children)
          | none => .selector (.other kind.name (exprsOf children)) (textIn .field children)
      | .qualifiedType =>
          match exprIn .package children with
          | some x => .selector x (textIn .name children)
          | none => .selector (.other kind.name (exprsOf children)) (textIn .name children)
      | .pointerType =>
          match firstExpr children with
          | some x => .star x
          | none => .star (.other kind.name [])
      | .unaryExpression =>
          match exprIn .operand children with
          | some x => .unary text x
          | none => .unary text (.other kind.name (exprsOf children))
      | .parenthesizedExpression | .literalElement =>
          match firstExpr children with
          | some x => x
          | none => .other kind.name []
      | .compositeLiteral => .composite (exprIn .type children) (partsIn .body children)
      | .literalValue => .composite none (exprsOf children)
      | .keyedElement =>
          match exprsOf children with
          | key :: value :: _ => .keyValue key value
          | parts => .other kind.name parts
      | .callExpression =>
          match exprIn .function children with
          | some callee => .call callee (partsIn .arguments children)
          | none => .call (.other kind.name (exprsOf children)) (partsIn .arguments children)
      | .funcLiteral => .funcLit (blockIn .body children)
      | kind => .other kind.name (exprsOf children)

def Tree.toStmt : Tree → Stmt
  | .node kind _ _ children =>
      match kind with
      | .expressionStatement =>
          match firstExpr children with
          | some x => .expr x
          | none => .block []
      | .returnStatement => .ret (spread children)
      | .shortVarDeclaration | .assignmentStatement =>
          .assign (listIn .left children) (listIn .right children)
      | .varSpec => .assign (allIn .name children) (listIn .value children)
      | .varDeclaration | .varSpecList => .block (stmtsOf children)
      | .block | .statementList => .block (blockOf children)
      | kind => .other kind.name (exprsAmong children) (stmtsAmong children)

def exprsOf : List Tree → List Expr
  | [] => []
  | t :: ts => if t.kind = .comment then exprsOf ts else t.toExpr :: exprsOf ts

def firstExpr : List Tree → Option Expr
  | [] => none
  | t :: ts => if t.kind = .comment then firstExpr ts else some t.toExpr

def exprIn (role : Role) : List Tree → Option Expr
  | [] => none
  | t :: ts => if t.role = role then some t.toExpr else exprIn role ts

def allIn (role : Role) : List Tree → List Expr
  | [] => []
  | t :: ts => if t.role = role then t.toExpr :: allIn role ts else allIn role ts

def partsIn (role : Role) : List Tree → List Expr
  | [] => []
  | .node _ r _ parts :: ts => if r = role then exprsOf parts else partsIn role ts

def listIn (role : Role) : List Tree → List Expr
  | [] => []
  | .node kind r text parts :: ts =>
      if r = role then
        if kind = .expressionList then exprsOf parts
        else [(Tree.node kind r text parts).toExpr]
      else listIn role ts

def spread : List Tree → List Expr
  | [] => []
  | .node kind r text parts :: ts =>
      if kind = .comment then spread ts
      else if kind = .expressionList then exprsOf parts ++ spread ts
      else (Tree.node kind r text parts).toExpr :: spread ts

def exprsAmong : List Tree → List Expr
  | [] => []
  | t :: ts =>
      if t.kind = .comment ∨ t.kind.isStatement then exprsAmong ts
      else t.toExpr :: exprsAmong ts

def stmtsAmong : List Tree → List Stmt
  | [] => []
  | t :: ts => if t.kind.isStatement then t.toStmt :: stmtsAmong ts else stmtsAmong ts

def stmtsOf : List Tree → List Stmt
  | [] => []
  | t :: ts => if t.kind = .comment then stmtsOf ts else t.toStmt :: stmtsOf ts

def blockOf : List Tree → List Stmt
  | [] => []
  | .node kind r text parts :: ts =>
      if kind = .comment then blockOf ts
      else if kind = .statementList then stmtsOf parts ++ blockOf ts
      else (Tree.node kind r text parts).toStmt :: blockOf ts

def blockIn (role : Role) : List Tree → List Stmt
  | [] => []
  | .node _ r _ parts :: ts => if r = role then blockOf parts else blockIn role ts

end

def resultTypes (function : Tree) : List Expr :=
  match function.child? .result with
  | none => []
  | some t =>
      if t.kind = .parameterList then
        (t.children.filter (·.kind ≠ .comment)).filterMap fun p => exprIn .type p.children
      else [t.toExpr]

def Tree.toFunc (t : Tree) (doc : String) (row : Nat) : Func where
  name := textIn .name t.children
  doc := doc
  line := row + 1
  results := resultTypes t
  body := blockIn .body t.children

def isAttached (group : List TopNode) (row : Nat) : Bool :=
  match group.getLast? with
  | some c => c.lastRow + 1 = row
  | none => false

def extendGroup (codeRow : Option Nat) (group : List TopNode) (c : TopNode) : List TopNode :=
  if codeRow = some c.firstRow then []
  else match group.getLast? with
    | some previous => if c.firstRow ≤ previous.lastRow + 1 then group ++ [c] else [c]
    | none => [c]

def functionsFrom (codeRow : Option Nat) (group : List TopNode) : List TopNode → List Func
  | [] => []
  | node :: nodes =>
      match node.tree.kind with
      | .comment => functionsFrom codeRow (extendGroup codeRow group node) nodes
      | .functionDeclaration =>
          let doc := if isAttached group node.firstRow
            then docText (group.map (·.tree.text)) else ""
          node.tree.toFunc doc node.firstRow :: functionsFrom (some node.lastRow) [] nodes
      | _ => functionsFrom (some node.lastRow) [] nodes

def functions (nodes : List TopNode) : List Func :=
  functionsFrom none [] nodes

def importSpecs (t : Tree) : List ImportSpec :=
  let specs := t.children.flatMap fun c =>
    if c.kind = .importSpecList then c.children else [c]
  (specs.filter (·.kind = .importSpec)).map fun s =>
    { name := (s.child? .name).map Tree.text, path := textIn .path s.children }

def packageName (nodes : List TopNode) : String :=
  match nodes.find? (·.tree.kind = .packageClause) with
  | some n => match n.tree.children with
    | t :: _ => t.text
    | [] => ""
  | none => ""

def File.ofNodes (path : String) (nodes : List TopNode) : File where
  path := path
  package := packageName nodes
  imports := (nodes.filter (·.tree.kind = .importDeclaration)).flatMap (importSpecs ·.tree)
  funcs := functions nodes

end ProviderManual.Source
