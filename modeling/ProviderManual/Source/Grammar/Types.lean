import ProviderManual.Source.Grammar.Basic

namespace ProviderManual.Source.Grammar

def isTypeStart (t : Token) : Bool :=
  match t.kind with
  | .word => true
  | .symbol => ["*", "[", "(", "<-", "~"].contains t.text
  | .keyword => ["chan", "func", "map", "struct", "interface"].contains t.text
  | _ => false

def typeName (inner : Phrases) : Phrase Tree := do
  let name ← next
  if name.kind ≠ .word then failure
  let base ←
    if ← symbol? "." then do
      let member ← word .typeIdentifier
      pure (Tree.branch .qualifiedType
        [(Tree.leaf .packageIdentifier name.text).withRole .package, member.withRole .name])
    else pure (Tree.leaf .typeIdentifier name.text)
  if ← atSymbol "[" then
    match ← attempt (do symbol "["; commaClosed "]" inner.type) with
    | some (arg :: args) =>
        return .branch .genericType
          [base.withRole .type,
            (Tree.branch .typeArguments
              ((arg :: args).map fun t => .branch .typeElem [t])).withRole .typeArguments]
    | _ => return base
  else return base

inductive Entry where
  | bare (type : Tree) (name? : Option String)
  | named (name : Tree) (type : Tree)
  | variadic (name? : Option Tree) (type : Tree)

def entry (inner : Phrases) : Phrase Entry := do
  if ← symbol? "..." then return .variadic none (← inner.type)
  let named ← attempt do
    let name ← word .identifier
    if ← symbol? "..." then return Entry.variadic (some name) (← inner.type)
    return Entry.named name (← inner.type)
  match named with
  | some e => return e
  | none =>
      let t ← inner.type
      return .bare t (if t.kind = .typeIdentifier then some t.text else none)

def declareParameter (names : List Tree) (type : Tree) : Tree :=
  .branch .parameterDeclaration (names.map (·.withRole .name) ++ [type.withRole .type])

/-- Groups entries into declarations; once a name occurs, a bare name shares the type that follows. -/
def groupEntries (pending : List Tree) : List Entry → List Tree
  | [] => []
  | .bare type name? :: es =>
      match name? with
      | some name => groupEntries (pending ++ [.leaf .identifier name]) es
      | none => declareParameter pending type :: groupEntries [] es
  | .named name type :: es => declareParameter (pending ++ [name]) type :: groupEntries [] es
  | .variadic name? type :: es =>
      .branch .variadicParameterDeclaration
        ((name?.toList.map (·.withRole .name)) ++ [type.withRole .type]) :: groupEntries [] es

def Entry.isNamed : Entry → Bool
  | .named _ _ => true
  | .variadic name? _ => name?.isSome
  | .bare _ _ => false

def declarations (entries : List Entry) : List Tree :=
  if entries.any Entry.isNamed then groupEntries [] entries
  else entries.map fun
    | .variadic _ type => .branch .variadicParameterDeclaration [type.withRole .type]
    | .bare type _ | .named _ type => declareParameter [] type

def parameterList (inner : Phrases) : Phrase Tree := do
  symbol "("
  return .branch .parameterList (declarations (← commaClosed ")" (entry inner)))

def result? (inner : Phrases) : Phrase (List Tree) := do
  match ← peek with
  | none => return []
  | some t =>
      if t.isSymbol "(" then return [(← parameterList inner).withRole .result]
      else if isTypeStart t then return [(← inner.type).withRole .result]
      else return []

def signature (inner : Phrases) : Phrase (List Tree) := do
  let parameters ← parameterList inner
  return parameters.withRole .parameters :: (← result? inner)

def tag? : Phrase (List Tree) := do
  match ← peek with
  | some t =>
      if t.kind = .interpreted then let t ← next; return [.leaf .interpretedStringLiteral t.text]
      else if t.kind = .raw then let t ← next; return [.leaf .rawStringLiteral t.text]
      else return []
  | none => return []

def field (inner : Phrases) : Phrase Tree := do
  let named ← attempt do
    let names ← commaSeparated (word .fieldIdentifier)
    let type ← inner.type
    return names.map (·.withRole .name) ++ [type.withRole .type]
  match named with
  | some parts => return .branch .fieldDeclaration (parts ++ (← tag?))
  | none =>
      let _ ← symbol? "*"
      let type ← typeName inner
      return .branch .fieldDeclaration (type.withRole .type :: (← tag?))

def member (inner : Phrases) : Phrase Tree := do
  let method ← attempt do
    let name ← word .fieldIdentifier
    if ← atSymbol "(" then
      return Tree.branch .methodElem (name.withRole .name :: (← signature inner))
    else failure
  match method with
  | some m => return m
  | none =>
      let first ← inner.type
      let more ← gather do
        if ← symbol? "|" then return some (← inner.type) else return none
      return .branch .typeElem (first :: more)

def bracketType (inner : Phrases) : Phrase Tree := do
  symbol "["
  if ← symbol? "]" then
    return .branch .sliceType [← inner.type]
  else if ← symbol? "..." then
    symbol "]"
    return .branch .implicitLengthArrayType [← inner.type]
  else
    let length ← inner.expr true
    symbol "]"
    return .branch .arrayType [length, ← inner.type]

def structType (inner : Phrases) : Phrase Tree := do
  keyword "struct"
  symbol "\x7b"
  return .branch .structType
    [.branch .fieldDeclarationList (← linesClosed "\x7d" (field inner))]

def interfaceType (inner : Phrases) : Phrase Tree := do
  keyword "interface"
  symbol "\x7b"
  return .branch .interfaceType (← linesClosed "\x7d" (member inner))

def mapType (inner : Phrases) : Phrase Tree := do
  keyword "map"
  symbol "["
  let key ← inner.type
  symbol "]"
  return .branch .mapType [key, ← inner.type]

def channelType (inner : Phrases) : Phrase Tree := do
  let _ ← symbol? "<-"
  keyword "chan"
  let _ ← symbol? "<-"
  return .branch .channelType [← inner.type]

def functionType (inner : Phrases) : Phrase Tree := do
  keyword "func"
  return .branch .functionType (← signature inner)

def typePhrase (inner : Phrases) : Phrase Tree := do
  match ← peek with
  | none => failure
  | some t =>
      match t.kind, t.text with
      | .word, _ => typeName inner
      | .symbol, "*" => symbol "*"; return .branch .pointerType [← inner.type]
      | .symbol, "~" => symbol "~"; return .branch .negatedType [← inner.type]
      | .symbol, "(" =>
          symbol "("
          let type ← inner.type
          symbol ")"
          return .branch .parenthesizedType [type]
      | .symbol, "[" => bracketType inner
      | .symbol, "<-" => channelType inner
      | .keyword, "chan" => channelType inner
      | .keyword, "map" => mapType inner
      | .keyword, "struct" => structType inner
      | .keyword, "interface" => interfaceType inner
      | .keyword, "func" => functionType inner
      | _, _ => failure

end ProviderManual.Source.Grammar
