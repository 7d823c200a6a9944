import ProviderManual.Source.Grammar.Statements

namespace ProviderManual.Source.Grammar

def packageClause : Phrase Tree := do
  keyword "package"
  return .branch .packageClause [← word .packageIdentifier]

def importName? : Phrase (List Tree) := do
  match ← peek with
  | some t =>
      if t.kind = .word then
        let kind := if t.text = "_" then NodeKind.blankIdentifier else .packageIdentifier
        return [(← word kind).withRole .name]
      else if t.isSymbol "." then
        symbol "."
        return [(Tree.leaf .dot ".").withRole .name]
      else return []
  | none => return []

def importSpec : Phrase Tree := do
  let name ← importName?
  let t ← next
  let kind ← match t.kind with
    | .interpreted => pure NodeKind.interpretedStringLiteral
    | .raw => pure NodeKind.rawStringLiteral
    | _ => failure
  return .branch .importSpec (name ++ [(Tree.leaf kind t.text).withRole .path])

def importDeclaration : Phrase Tree := do
  keyword "import"
  let (grouped, imports) ← specs importSpec
  return .branch .importDeclaration
    (if grouped then [.branch .importSpecList imports] else imports)

def body? (inner : Phrases) : Phrase (List Tree) := do
  if ← atSymbol "\x7b" then return [(← inner.block).withRole .body] else return []

def functionDeclaration (inner : Phrases) : Phrase Tree := do
  keyword "func"
  let name ← word .identifier
  let types ← typeParameters? inner
  let parts ← signature inner
  return .branch .functionDeclaration
    (name.withRole .name :: types ++ parts ++ (← body? inner))

def methodDeclaration (inner : Phrases) : Phrase Tree := do
  keyword "func"
  let receiver ← parameterList inner
  let name ← word .fieldIdentifier
  let parts ← signature inner
  return .branch .methodDeclaration
    (receiver :: name.withRole .name :: parts ++ (← body? inner))

def topDeclaration (inner : Phrases) : Phrase Tree := do
  match ← peek with
  | none => failure
  | some t =>
      match t.kind, t.text with
      | .keyword, "package" => packageClause
      | .keyword, "import" => importDeclaration
      | .keyword, "func" =>
          match ← attempt (functionDeclaration inner) with
          | some f => return f
          | none =>
              match ← attempt (methodDeclaration inner) with
              | some m => return m
              | none => inner.statement
      | _, _ => inner.statement

def lastRowOf (taken : List Token) (firstRow : Nat) : Nat :=
  match taken.getLast? with
  | some t => t.lastRow
  | none => firstRow

def topNodes (inner : Phrases) : Nat → List Token → List TopNode × Bool
  | 0, _ => ([], false)
  | _ + 1, [] => ([], false)
  | bound + 1, t :: ts =>
      if t.kind = .comment then
        let (nodes, broken) := topNodes inner bound ts
        (⟨.leaf .comment t.text, t.firstRow, t.lastRow⟩ :: nodes, broken)
      else if t.kind = .newline || t.isSymbol ";" then topNodes inner bound ts
      else match topDeclaration inner (t :: ts) with
        | none =>
            let (nodes, _) := topNodes inner bound (ts.dropWhile (·.kind ≠ .newline))
            (nodes, true)
        | some (tree, rest) =>
            let taken := (t :: ts).take (ts.length + 1 - rest.length)
            let (nodes, broken) := topNodes inner bound rest
            (⟨tree, t.firstRow, lastRowOf taken t.firstRow⟩ :: nodes, broken)

end Grammar

open Grammar

def parse (source : String) : List TopNode × Bool :=
  let tokens := Token.ofText source
  topNodes (phrases (2 * tokens.length + 8)) (tokens.length + 1) tokens

end ProviderManual.Source
