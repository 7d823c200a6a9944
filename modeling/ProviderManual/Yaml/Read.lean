import ProviderManual.Yaml.Scalar

/-! Nodes nest by indentation, or in brackets, where indentation does not count. -/

namespace ProviderManual.Yaml

namespace Reader

structure Nodes where
  /-- A node whose lines are indented at least as far as `indent`; the flag says whether it follows a key on
  the key's line, where no entry can start. -/
  block : (indent : Nat) → (afterKey : Bool) → Reader Node
  flow : Reader Node

def fails : Nodes where
  block _ _ := failure
  flow := failure

def anchorName : Reader String := do
  past 1
  let name := (← rest).takeWhile fun c =>
    ('a' ≤ c && c ≤ 'z') || ('A' ≤ c && c ≤ 'Z') || ('0' ≤ c && c ≤ '9') || c = '_' || c = '-'
  if name.isEmpty then failure
  past name.length
  return String.ofList name

def define (name : String) (n : Node) : Reader Unit :=
  modify fun c => { c with anchors := (name, n) :: c.anchors }

def aliased : Reader Node := do
  let name ← anchorName
  match (← get).anchors.find? (·.1 = name) with
  | some (_, n) => return n
  | none => failure

def tag : Reader Unit := do
  past ((← rest).takeWhile fun c => !isBlank c && c ≠ '\n').length

def atOneOf (cs : List Char) : Reader Bool := do
  return (← rest).head?.any cs.contains

def flowValue (inner : Nodes) (ends : List Char) : Reader Node := do
  let _ ← toToken true true
  if ← atOneOf ends then return .empty else inner.flow

def flowComma (close : Char) : Reader Unit := do
  let _ ← toToken true true
  if ← char? ',' then pure ()
  else if ← atOneOf [close] then pure ()
  else failure

def flowItem (inner : Nodes) : Reader Node := do
  let n ← inner.flow
  let _ ← toToken true true
  if ← char? ':' then return .mapping [(n, ← flowValue inner [',', ']'])] else return n

def flowSequence (inner : Nodes) : Reader Node := do
  past 1
  let items ← gather do
    let _ ← toToken true true
    if ← char? ']' then return none
    let n ← flowItem inner
    flowComma ']'
    return some n
  return .sequence items

def flowMapping (inner : Nodes) : Reader Node := do
  past 1
  let entries ← gather do
    let _ ← toToken true true
    if ← char? '\x7d' then return none
    let key ← inner.flow
    let _ ← toToken true true
    let value ← if ← char? ':' then flowValue inner [',', '\x7d'] else pure .empty
    flowComma '\x7d'
    return some (key, value)
  return .mapping entries

def flow (inner : Nodes) : Reader Node := do
  match ← rest with
  | '[' :: _ => flowSequence inner
  | '\x7b' :: _ => flowMapping inner
  | '"' :: _ => return (← quoted '"').1
  | '\'' :: _ => return (← quoted '\'').1
  | '*' :: _ => aliased
  | '!' :: _ => do
      tag
      flowValue inner [',', ']', '\x7d']
  | '&' :: _ => do
      let name ← anchorName
      let n ← flowValue inner [',', ']', '\x7d']
      define name n
      return n
  | _ => plain true 0

def key? : Reader (Option Node) := fun c =>
  let text : Reader Node := do
    match ← rest with
    | '"' :: _ => do
        let (n, oneLine) ← quoted '"'
        if oneLine then return n else failure
    | '\'' :: _ => do
        let (n, oneLine) ← quoted '\''
        if oneLine then return n else failure
    | cs => do
        if startsPlain false cs then
          return .scalar (String.ofList (← plainLine false)) true
        else failure
  match text c with
  | none => some (none, c)
  | some (n, d) =>
      let blanks := d.rest.takeWhile isBlank
      match d.rest.drop blanks.length with
      | ':' :: cs => if endsWord cs then some (some n, d.past (blanks.length + 1)) else some (none, c)
      | _ => some (none, c)

def atHyphen : Reader Bool := do
  match ← rest with
  | '-' :: cs => return endsWord cs
  | _ => return false

def blockSequence (inner : Nodes) (column : Nat) : Reader Node := do
  let items ← gather do
    let c ← get
    if c.atEnd ∨ c.column ≠ column ∨ !(← atHyphen) then return none
    past 1
    let _ ← toToken false false
    let d ← get
    if d.atEnd ∨ d.column ≤ column then return some .empty
    else return some (← inner.block (column + 1) false)
  return .sequence items

def blockValue (inner : Nodes) (column : Nat) : Reader Node := do
  let crossed ← toToken true false
  let c ← get
  if c.atEnd then return .empty
  else if !crossed then inner.block (column + 1) true
  else if c.column > column then inner.block (column + 1) false
  else if c.column = column ∧ (← atHyphen) then blockSequence inner column
  else return .empty

def blockMapping (inner : Nodes) (column : Nat) : Reader Node := do
  let entries ← gather do
    let c ← get
    if c.atEnd ∨ c.column ≠ column then return none
    match ← key? with
    | none => failure
    | some key => return some (key, ← blockValue inner column)
  return .mapping entries

def line (p : Reader Node) : Reader Node := do
  let n ← p
  let crossed ← toToken true false
  if crossed ∨ (← rest).isEmpty then return n else failure

def afterProperty (inner : Nodes) (indent : Nat) (afterKey : Bool) : Reader Node := do
  let crossed ← toToken true false
  let c ← get
  if c.atEnd ∨ (crossed ∧ c.column < indent) then return .empty
  else inner.block indent (afterKey && !crossed)

def block (inner : Nodes) (indent : Nat) (afterKey : Bool) : Reader Node := do
  let c ← get
  if ← atHyphen then
    if afterKey then failure else blockSequence inner c.column
  else
    match c.rest with
    | '[' :: _ | '\x7b' :: _ => line inner.flow
    | '*' :: _ => line aliased
    | '!' :: _ => do
        tag
        afterProperty inner indent afterKey
    | '&' :: _ => do
        let name ← anchorName
        let n ← afterProperty inner indent afterKey
        define name n
        return n
    | '|' :: _ | '>' :: _ => do
        let n ← blockText (c.rest.head? = some '|') indent
        let _ ← toToken false false
        return n
    | cs => do
        match ← key? with
        | some _ =>
            if afterKey then failure
            else
              set c
              blockMapping inner c.column
        | none =>
            line (match cs with
              | '"' :: _ => do return (← quoted '"').1
              | '\'' :: _ => do return (← quoted '\'').1
              | _ => plain false indent)

def nodes : Nat → Nodes
  | 0 => fails
  | depth + 1 => { block := block (nodes depth), flow := flow (nodes depth) }

def document : Reader (Option Node) := do
  let inner := nodes ((← rest).length + 1)
  let _ ← toToken false false
  let c ← get
  if c.rest.isEmpty then return none
  let marked := c.column = 0 ∧ isMarker c.rest
  let crossed ← if marked then
      past 3
      toToken true false
    else pure true
  let n ← if (← get).atEnd then pure .empty else inner.block 0 (!crossed)
  let d ← get
  match d.rest with
  | [] => return some n
  | '.' :: _ => do
      if !d.atEnd then failure
      past 3
      let _ ← toToken false false
      if (← rest).isEmpty then return some n else failure
  | _ => failure

end Reader

def parse (text : String) : Option (Option Node) :=
  let cs := match text.toList with
    | '\ufeff' :: cs => cs
    | cs => cs
  if cs.all isPrintable then
    (Reader.document (.ofText (joinLineEnds cs))).map Prod.fst
  else none

end ProviderManual.Yaml
