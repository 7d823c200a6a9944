import ProviderManual.Source.Grammar.Expressions

namespace ProviderManual.Source.Grammar

def assignmentOperators : List String :=
  ["=", "+=", "-=", "*=", "/=", "%=", "&=", "|=", "^=", "<<=", ">>=", "&^="]

def onlyOne (list : Tree) : Phrase Tree :=
  match list.children with
  | [x] => pure x
  | _ => failure

def simpleStatement (inner : Phrases) (bare : Bool) : Phrase Tree := do
  let left ← expressionList inner bare
  match ← peek with
  | none => return .branch .expressionStatement [← onlyOne left]
  | some t =>
      if t.kind ≠ .symbol then return .branch .expressionStatement [← onlyOne left]
      else if t.text = ":=" then
        let _ ← next
        let right ← expressionList inner bare
        return .branch .shortVarDeclaration [left.withRole .left, right.withRole .right]
      else if t.text ∈ assignmentOperators then
        let _ ← next
        let right ← expressionList inner bare
        return .branch .assignmentStatement [left.withRole .left, right.withRole .right]
      else if t.text = "++" then
        let _ ← next
        return .branch .incStatement [← onlyOne left]
      else if t.text = "--" then
        let _ ← next
        return .branch .decStatement [← onlyOne left]
      else if t.text = "<-" then
        let _ ← next
        return .branch .sendStatement [← onlyOne left, ← inner.expr bare]
      else return .branch .expressionStatement [← onlyOne left]

def atListEnd : Phrase Bool := do
  match ← peek with
  | none => return true
  | some t => return t.isSymbol "\x7d" || t.isKeyword "case" || t.isKeyword "default"

def statementList (inner : Phrases) : Phrase (List Tree) :=
  gather do
    terminators
    if ← atListEnd then return none
    return some (← inner.statement)

def block (inner : Phrases) : Phrase Tree := do
  symbol "\x7b"
  let statements ← statementList inner
  symbol "\x7d"
  return .branch .block statements

def typeAndValue (inner : Phrases) : Phrase (List Tree) := do
  let type ← if ← atSymbol "=" then pure [] else
    match ← peek with
    | some t => if isTypeStart t then pure [(← inner.type).withRole .type] else pure []
    | none => pure []
  let value ← if ← symbol? "=" then
    pure [(← expressionList inner true).withRole .value] else pure []
  return type ++ value

def valueSpec (inner : Phrases) (kind : NodeKind) : Phrase Tree := do
  let names ← commaSeparated (word .identifier)
  return .branch kind (names.map (·.withRole .name) ++ (← typeAndValue inner))

def typeParameters? (inner : Phrases) : Phrase (List Tree) := do
  if ← atSymbol "[" then
    let entries ← attempt do
      symbol "["
      commaClosed "]" do
        let names ← commaSeparated (word .identifier)
        let first ← inner.type
        let more ← gather do
          if ← symbol? "|" then return some (← inner.type) else return none
        return Tree.branch .typeParameterDeclaration (names.map (·.withRole .name) ++
          [(Tree.branch .typeConstraint (first :: more)).withRole .type])
    match entries with
    | some (e :: es) => return [.branch .typeParameterList (e :: es)]
    | _ => return []
  else return []

def typeSpec (inner : Phrases) : Phrase Tree := do
  let name ← word .typeIdentifier
  let parameters ← typeParameters? inner
  let isAlias ← symbol? "="
  let type ← inner.type
  return .branch (if isAlias then .typeAlias else .typeSpec)
    (name.withRole .name :: parameters ++ [type.withRole .type])

def specs (p : Phrase Tree) : Phrase (Bool × List Tree) := do
  if ← symbol? "(" then return (true, ← linesClosed ")" p) else return (false, [← p])

def declaration (inner : Phrases) : Phrase Tree := do
  let t ← next
  match t.kind, t.text with
  | .keyword, "var" =>
      let (grouped, vars) ← specs (valueSpec inner .varSpec)
      return .branch .varDeclaration (if grouped then [.branch .varSpecList vars] else vars)
  | .keyword, "const" =>
      return .branch .constDeclaration (← specs (valueSpec inner .constSpec)).2
  | .keyword, "type" => return .branch .typeDeclaration (← specs (typeSpec inner)).2
  | _, _ => failure

def initializer? (inner : Phrases) : Phrase (List Tree) := do
  if ← atSymbol ";" then return [] else return [← simpleStatement inner false]

def conditionOf : Tree → Phrase Tree
  | .node .expressionStatement _ _ [x] => pure x
  | _ => failure

def ifStatement (inner : Phrases) : Phrase Tree := do
  keyword "if"
  let first ← initializer? inner
  let header ← if ← symbol? ";" then pure (first ++ [← inner.expr false])
    else match first with
      | [s] => pure [← conditionOf s]
      | _ => failure
  let consequence ← inner.block
  let alternative ← if ← keyword? "else" then pure [← inner.statement] else pure []
  return .branch .ifStatement (header ++ consequence :: alternative)

def rangeClause (inner : Phrases) : Phrase Tree := do
  let left ← if ← atKeyword "range" then pure [] else do
    let left ← expressionList inner false
    if !(← symbol? ":=") then symbol "="
    pure [left.withRole .left]
  keyword "range"
  return .branch .rangeClause (left ++ [(← inner.expr false).withRole .right])

def forClause (inner : Phrases) (first : List Tree) : Phrase Tree := do
  symbol ";"
  let condition ← if ← atSymbol ";" then pure [] else pure [← inner.expr false]
  symbol ";"
  let update ← if ← atSymbol "\x7b" then pure [] else pure [← simpleStatement inner false]
  return .branch .forClause (first ++ condition ++ update)

def forStatement (inner : Phrases) : Phrase Tree := do
  keyword "for"
  let header ← if ← atSymbol "\x7b" then pure [] else
    match ← attempt (rangeClause inner) with
    | some clause => pure [clause]
    | none => do
        let first ← initializer? inner
        if ← atSymbol ";" then pure [← forClause inner first]
        else match first with
          | [s] => pure [← conditionOf s]
          | _ => failure
  return .branch .forStatement (header ++ [← inner.block])

def typeGuard (inner : Phrases) : Phrase (List Tree) := do
  let bound ← attempt do
    let names ← expressionList inner false
    symbol ":="
    return names
  let x ← inner.expr false
  symbol "."
  symbol "("
  keyword "type"
  symbol ")"
  return (bound.map (·.withRole .name)).toList ++ [x.withRole .value]

def caseBody (inner : Phrases) : Phrase (List Tree) := do
  symbol ":"
  statementList inner

def cases (p : Phrase Tree) : Phrase (List Tree) := do
  symbol "\x7b"
  let items ← gather do
    if ← atSymbolInside "\x7d" then return none
    terminators
    return some (← p)
  symbol "\x7d"
  return items

def defaultCase (inner : Phrases) : Phrase Tree := do
  keyword "default"
  return .branch .defaultCase (← caseBody inner)

def expressionCase (inner : Phrases) : Phrase Tree := do
  if ← atKeyword "default" then defaultCase inner
  else
    keyword "case"
    let values ← expressionList inner true
    return .branch .expressionCase (values.withRole .value :: (← caseBody inner))

def typeCase (inner : Phrases) : Phrase Tree := do
  if ← atKeyword "default" then defaultCase inner
  else
    keyword "case"
    let types ← commaSeparated inner.type
    return .branch .typeCase (types.map (·.withRole .type) ++ (← caseBody inner))

def switchStatement (inner : Phrases) : Phrase Tree := do
  keyword "switch"
  let first ← attempt do
    let first ← initializer? inner
    symbol ";"
    return first
  let init := first.getD []
  match ← attempt (typeGuard inner) with
  | some guarded =>
      return .branch .typeSwitchStatement (init ++ guarded ++ (← cases (typeCase inner)))
  | none =>
      let value ← if ← atSymbol "\x7b" then pure [] else
        pure [(← inner.expr false).withRole .value]
      return .branch .expressionSwitchStatement
        (init ++ value ++ (← cases (expressionCase inner)))

def communication (inner : Phrases) : Phrase Tree := do
  let left ← expressionList inner true
  match ← peek with
  | some t =>
      if t.isSymbol "<-" then
        symbol "<-"
        return .branch .sendStatement [← onlyOne left, ← inner.expr true]
      else if t.isSymbol ":=" || t.isSymbol "=" then
        let _ ← next
        return .branch .receiveStatement
          [left.withRole .left, (← inner.expr true).withRole .right]
      else return .branch .receiveStatement [(← onlyOne left).withRole .right]
  | none => failure

def communicationCase (inner : Phrases) : Phrase Tree := do
  if ← atKeyword "default" then defaultCase inner
  else
    keyword "case"
    let what ← communication inner
    return .branch .communicationCase (what :: (← caseBody inner))

def selectStatement (inner : Phrases) : Phrase Tree := do
  keyword "select"
  return .branch .selectStatement (← cases (communicationCase inner))

def label? : Phrase (List Tree) := do
  match ← peek with
  | some t => if t.kind = .word then return [← word .labelName] else return []
  | none => return []

def atTerminator : Phrase Bool := do
  match ← peek with
  | none => return true
  | some t => return t.kind = .newline || t.isSymbol ";" || t.isSymbol "\x7d"

def returnStatement (inner : Phrases) : Phrase Tree := do
  keyword "return"
  if ← atTerminator then return .branch .returnStatement []
  else return .branch .returnStatement [← expressionList inner true]

def labeledStatement (inner : Phrases) : Phrase Tree := do
  let label ← word .labelName
  symbol ":"
  let body ← if ← atSymbolInside "\x7d" then pure [] else pure [← inner.statement]
  return .branch .labeledStatement (label :: body)

def jump (name : String) (kind : NodeKind) : Phrase Tree := do
  keyword name
  return .branch kind (← label?)

def wordAndCall (inner : Phrases) (name : String) (kind : NodeKind) : Phrase Tree := do
  keyword name
  return .branch kind [← inner.expr true]

def statementPhrase (inner : Phrases) : Phrase Tree := do
  match ← peek with
  | none => failure
  | some t =>
      match t.kind, t.text with
      | .keyword, "var" | .keyword, "const" | .keyword, "type" => declaration inner
      | .keyword, "return" => returnStatement inner
      | .keyword, "if" => ifStatement inner
      | .keyword, "for" => forStatement inner
      | .keyword, "switch" => switchStatement inner
      | .keyword, "select" => selectStatement inner
      | .keyword, "go" => wordAndCall inner "go" .goStatement
      | .keyword, "defer" => wordAndCall inner "defer" .deferStatement
      | .keyword, "break" => jump "break" .breakStatement
      | .keyword, "continue" => jump "continue" .continueStatement
      | .keyword, "goto" => jump "goto" .gotoStatement
      | .keyword, "fallthrough" => jump "fallthrough" .fallthroughStatement
      | .symbol, "\x7b" => inner.block
      | .word, _ =>
          if ← foresee (do let _ ← next; symbol ":") then labeledStatement inner
          else simpleStatement inner true
      | _, _ => simpleStatement inner true

/-- The phrases that may nest at most `depth` levels deep. -/
def phrases : Nat → Phrases
  | 0 => ⟨fun _ => failure, fun _ => failure, failure, failure, failure, failure⟩
  | depth + 1 =>
      let inner := phrases depth
      { expr := exprPhrase inner
        unary := unaryPhrase inner
        type := typePhrase inner
        literalValue := literalValue inner
        block := block inner
        statement := statementPhrase inner }

end ProviderManual.Source.Grammar
