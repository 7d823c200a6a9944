import ProviderManual.Source.Grammar.Types

namespace ProviderManual.Source.Grammar

def isTypeOnly (t : Tree) : Bool :=
  match t.kind with
  | .sliceType | .arrayType | .mapType | .channelType | .functionType | .interfaceType
  | .structType | .parenthesizedType | .pointerType => true
  | _ => false

def isTypeLike : Tree → Bool
  | .node kind _ text children =>
      match kind, children with
      | .identifier, _ => true
      | .selectorExpression, [.node .identifier _ _ _, _] => true
      | .parenthesizedExpression, [x] => isTypeLike x
      | .unaryExpression, [x] => text = "*" && isTypeLike x
      | kind, _ => isTypeOnly (.node kind .plain text [])

def isLiteralTypeName (t : Tree) : Bool :=
  match t.kind, t.children with
  | .identifier, _ => true
  | .selectorExpression, .node .identifier _ _ _ :: _ => true
  | _, _ => false

def identifierKind (text : String) : NodeKind :=
  if text = "true" then .trueName
  else if text = "false" then .falseName
  else if text = "nil" then .nil
  else if text = "iota" then .iota
  else .identifier

def compositeLiteral (inner : Phrases) (type : Tree) : Phrase Tree := do
  return .branch .compositeLiteral
    [type.withRole .type, (← inner.literalValue).withRole .body]

def element (inner : Phrases) : Phrase Tree := do
  let part := do
    if ← atSymbolInside "\x7b" then
      return Tree.branch .literalElement [← inner.literalValue]
    else return Tree.branch .literalElement [← inner.expr true]
  let first ← part
  if ← symbol? ":" then return .branch .keyedElement [first, ← part] else return first

def literalValue (inner : Phrases) : Phrase Tree := do
  symbol "\x7b"
  return .branch .literalValue (← commaClosed "\x7d" (element inner))

def typeOperand (inner : Phrases) (type : Tree) : Phrase Tree := do
  if ← atSymbol "\x7b" then compositeLiteral inner type
  else if ← atSymbol "(" then
    symbol "("
    match ← commaClosed ")" (inner.expr true) with
    | [x] =>
        return .branch .typeConversionExpression [type.withRole .type, x.withRole .operand]
    | _ => failure
  else return type

def functionOperand (inner : Phrases) : Phrase Tree := do
  keyword "func"
  let parts ← signature inner
  if ← atSymbol "\x7b" then
    return .branch .funcLiteral (parts ++ [(← inner.block).withRole .body])
  else typeOperand inner (.branch .functionType parts)

def parenthesized (inner : Phrases) : Phrase Tree := do
  symbol "("
  let x ← inner.expr true
  symbol ")"
  if isTypeOnly x then typeOperand inner (.branch .parenthesizedType [x])
  else return .branch .parenthesizedExpression [x]

def operand (inner : Phrases) : Phrase Tree := do
  match ← peek with
  | none => failure
  | some t =>
      let leaf (kind : NodeKind) : Phrase Tree := do
        let _ ← next
        return .leaf kind t.text
      match t.kind, t.text with
      | .word, text => leaf (identifierKind text)
      | .int, _ => leaf .intLiteral
      | .float, _ => leaf .floatLiteral
      | .imaginary, _ => leaf .imaginaryLiteral
      | .rune, _ => leaf .runeLiteral
      | .interpreted, _ => leaf .interpretedStringLiteral
      | .raw, _ => leaf .rawStringLiteral
      | .symbol, "(" => parenthesized inner
      | .symbol, "[" => do typeOperand inner (← bracketType inner)
      | .keyword, "func" => functionOperand inner
      | .keyword, "struct" => do typeOperand inner (← structType inner)
      | .keyword, "map" => do typeOperand inner (← mapType inner)
      | .keyword, "chan" => do typeOperand inner (← channelType inner)
      | .keyword, "interface" => do typeOperand inner (← interfaceType inner)
      | _, _ => failure

def argument (inner : Phrases) : Phrase Tree := do
  let x ← inner.expr true
  if ← symbol? "..." then return .branch .variadicArgument [x] else return x

def arguments (inner : Phrases) (callee : Tree) : Phrase Tree := do
  symbol "("
  if callee.kind = .identifier ∧ (callee.text = "new" ∨ callee.text = "make") then
    let args ← attempt do
      let type ← inner.type
      if ← symbol? "," then return type :: (← commaClosed ")" (argument inner))
      else
        symbol ")"
        return [type]
    match args with
    | some args => return .branch .argumentList args
    | none => return .branch .argumentList (← commaClosed ")" (argument inner))
  else return .branch .argumentList (← commaClosed ")" (argument inner))

def call (inner : Phrases) (callee : Tree) (types : List Tree) : Phrase Tree := do
  let args ← arguments inner callee
  let typeArgs := if types.isEmpty then [] else
    [(Tree.branch .typeArguments (types.map fun t => .branch .typeElem [t])).withRole
      .typeArguments]
  return .branch .callExpression
    ([callee.withRole .function] ++ typeArgs ++ [args.withRole .arguments])

def bound? (inner : Phrases) : Phrase (List Tree) := do
  if (← atSymbolInside ":") || (← atSymbolInside "]") then return []
  else return [← inner.expr true]

def slice (inner : Phrases) (x : Tree) (first : List Tree) : Phrase Tree := do
  symbol ":"
  let second ← bound? inner
  let third ← if ← symbol? ":" then bound? inner else pure []
  symbol "]"
  return .branch .sliceExpression (x.withRole .operand :: (first ++ second ++ third))

def bracketed (inner : Phrases) (x : Tree) : Phrase Tree := do
  symbol "["
  if ← atSymbolInside ":" then slice inner x []
  else
    let first ← inner.expr true
    if ← atSymbolInside ":" then slice inner x [first]
    else
      let more ← if ← symbol? "," then commaClosed "]" inner.type
        else do
          symbol "]"
          pure []
      if isTypeLike first && (← atSymbol "(") then call inner x (first :: more)
      else if more.isEmpty then
        return .branch .indexExpression [x.withRole .operand, first]
      else return .branch .typeInstantiationExpression (x.withRole .type :: first :: more)

def literalType? (x : Tree) : Option Tree :=
  let applied (name : Tree) (types : List Tree) : Tree :=
    .branch .genericType
      [name.withRole .type,
        (Tree.branch .typeArguments (types.map fun t => .branch .typeElem [t])).withRole
          .typeArguments]
  match x.kind, x.children with
  | .indexExpression, [name, type] =>
      if isLiteralTypeName name && isTypeLike type then some (applied name [type]) else none
  | .typeInstantiationExpression, name :: types =>
      if isLiteralTypeName name then some (applied name types) else none
  | _, _ => if isLiteralTypeName x then some x else none

def attached? (inner : Phrases) (bare : Bool) (x : Tree) : Phrase (Option Tree) := do
  match ← peek with
  | none => return none
  | some t =>
      if t.kind ≠ .symbol then return none
      match t.text with
      | "." =>
          if ← foresee (do symbol "."; symbol "("; keyword "type") then return none
          symbol "."
          if ← symbol? "(" then
            let type ← inner.type
            symbol ")"
            return some (.branch .typeAssertionExpression
              [x.withRole .operand, type.withRole .type])
          else
            let member ← word .fieldIdentifier
            return some (.branch .selectorExpression
              [x.withRole .operand, member.withRole .field])
      | "[" => return some (← bracketed inner x)
      | "(" => return some (← call inner x [])
      | "\x7b" =>
          match bare, literalType? x with
          | true, some type => return some (← compositeLiteral inner type)
          | _, _ => return none
      | _ => return none

def attachAtMost (inner : Phrases) (bare : Bool) : Nat → Tree → Phrase Tree
  | 0, _ => failure
  | bound + 1, x => do
      match ← attached? inner bare x with
      | none => return x
      | some y => attachAtMost inner bare bound y

def primary (inner : Phrases) (bare : Bool) : Phrase Tree := do
  let x ← operand inner
  attachAtMost inner bare ((← get).length + 1) x

def unaryOperators : List String :=
  ["+", "-", "!", "^", "*", "&", "<-"]

def unaryPhrase (inner : Phrases) (bare : Bool) : Phrase Tree := do
  match ← peek with
  | none => failure
  | some t =>
      if t.kind = .symbol ∧ t.text ∈ unaryOperators then
        if ← foresee (do symbol "<-"; keyword "chan") then
          typeOperand inner (← channelType inner)
        else
          let _ ← next
          let x ← inner.unary bare
          return .node .unaryExpression .plain t.text [x.withRole .operand]
      else primary inner bare

def binaryOperators : Nat → List String
  | 1 => ["||"]
  | 2 => ["&&"]
  | 3 => ["==", "!=", "<", "<=", ">", ">="]
  | 4 => ["+", "-", "|", "^"]
  | _ => ["*", "/", "%", "<<", ">>", "&", "&^"]

def chainAtMost (operators : List String) (p : Phrase Tree) : Nat → Tree → Phrase Tree
  | 0, _ => failure
  | bound + 1, x => do
      match ← peek with
      | some t =>
          if t.kind = .symbol ∧ t.text ∈ operators then
            let _ ← next
            let y ← p
            chainAtMost operators p bound
              (.branch .binaryExpression [x.withRole .left, y.withRole .right])
          else return x
      | none => return x

def binaryPhrase (inner : Phrases) (bare : Bool) : Nat → Phrase Tree
  | 0 => unaryPhrase inner bare
  | levels + 1 => do
      let tighter := binaryPhrase inner bare levels
      let x ← tighter
      chainAtMost (binaryOperators (5 - levels)) tighter ((← get).length + 1) x

def exprPhrase (inner : Phrases) (bare : Bool) : Phrase Tree :=
  binaryPhrase inner bare 5

def expressionList (inner : Phrases) (bare : Bool) : Phrase Tree := do
  return .branch .expressionList (← commaSeparated (inner.expr bare))

end ProviderManual.Source.Grammar
