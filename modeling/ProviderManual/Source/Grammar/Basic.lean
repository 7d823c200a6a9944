import ProviderManual.Source.Token
import ProviderManual.Source.Tree

/-! Phrases over a token list; `Phrases` holds those that nest, one level further in. -/

namespace ProviderManual.Source.Grammar

abbrev Phrase := StateT (List Token) Option

structure Phrases where
  /-- An expression; the flag says whether a bare type name may open a composite literal. -/
  expr : Bool → Phrase Tree
  unary : Bool → Phrase Tree
  type : Phrase Tree
  literalValue : Phrase Tree
  block : Phrase Tree
  statement : Phrase Tree

def pastComments (ts : List Token) : List Token :=
  ts.dropWhile (·.kind = .comment)

def pastNewlines (ts : List Token) : List Token :=
  ts.dropWhile fun t => t.kind = .comment || t.kind = .newline

def peek : Phrase (Option Token) := fun ts =>
  some ((pastComments ts).head?, ts)

def peekInside : Phrase (Option Token) := fun ts =>
  some ((pastNewlines ts).head?, ts)

def next : Phrase Token := fun ts =>
  match pastComments ts with
  | [] => none
  | t :: rest => some (t, rest)

def atSymbol (s : String) : Phrase Bool := do
  return (← peek).any (·.isSymbol s)

def atKeyword (s : String) : Phrase Bool := do
  return (← peek).any (·.isKeyword s)

def atSymbolInside (s : String) : Phrase Bool := do
  return (← peekInside).any (·.isSymbol s)

def symbol (s : String) : Phrase Unit := fun ts =>
  match pastNewlines ts with
  | [] => none
  | t :: rest => if t.isSymbol s then some ((), rest) else none

def keyword (s : String) : Phrase Unit := do
  let t ← next
  if t.isKeyword s then pure () else failure

def symbol? (s : String) : Phrase Bool := do
  if ← atSymbol s then
    symbol s
    return true
  else
    return false

def keyword? (s : String) : Phrase Bool := do
  if ← atKeyword s then
    keyword s
    return true
  else
    return false

def word (kind : NodeKind) : Phrase Tree := do
  let t ← next
  if t.kind = .word then return .leaf kind t.text else failure

def attempt {α : Type} (p : Phrase α) : Phrase (Option α) := fun ts =>
  match p ts with
  | some (a, rest) => some (some a, rest)
  | none => some (none, ts)

def foresee {α : Type} (p : Phrase α) : Phrase Bool := fun ts =>
  some ((p ts).isSome, ts)

def repeatAtMost {α : Type} (p : Phrase (Option α)) : Nat → Phrase (List α)
  | 0 => failure
  | bound + 1 => do
      match ← p with
      | none => return []
      | some a => return a :: (← repeatAtMost p bound)

/-- Repeats a phrase until it gives nothing; each round takes a token, which bounds their number. -/
def gather {α : Type} (p : Phrase (Option α)) : Phrase (List α) := do
  repeatAtMost p ((← get).length + 1)

def commaSeparated {α : Type} (p : Phrase α) : Phrase (List α) := do
  let first ← p
  let more ← gather do
    if ← symbol? "," then return some (← p) else return none
  return first :: more

def commaClosed {α : Type} (close : String) (p : Phrase α) : Phrase (List α) := do
  let items ← gather do
    if ← atSymbolInside close then return none
    let item ← p
    if ← atSymbolInside "," then symbol ","
    else if ← atSymbolInside close then pure ()
    else failure
    return some item
  symbol close
  return items

def terminators : Phrase Unit := fun ts =>
  some ((), ts.dropWhile fun t =>
    t.kind = .comment || t.kind = .newline || t.isSymbol ";")

def linesClosed {α : Type} (close : String) (p : Phrase α) : Phrase (List α) := do
  let items ← gather do
    terminators
    if ← atSymbol close then return none
    return some (← p)
  symbol close
  return items

end ProviderManual.Source.Grammar
