namespace ProviderManual.Yaml

inductive Node where
  | scalar (text : String) (plain : Bool)
  | sequence (items : List Node)
  | mapping (entries : List (Node × Node))
  deriving Repr, Inhabited

def Node.empty : Node :=
  .scalar "" true

structure Cursor where
  rest : List Char
  column : Nat
  anchors : List (String × Node)

abbrev Reader := StateT Cursor Option

def joinLineEnds : List Char → List Char
  | [] => []
  | '\r' :: '\n' :: cs => '\n' :: joinLineEnds cs
  | c :: cs => (if c = '\r' ∨ c = '\x85' then '\n' else c) :: joinLineEnds cs

def isPrintable (c : Char) : Bool :=
  let n := c.toNat
  n = 0x09 || n = 0x0a || n = 0x0d || (0x20 ≤ n && n ≤ 0x7e) || n = 0x85
    || (0xa0 ≤ n && n ≤ 0xfffd) || 0x10000 ≤ n

def isBlank (c : Char) : Bool :=
  c = ' ' || c = '\t'

def endsWord : List Char → Bool
  | [] => true
  | c :: _ => isBlank c || c = '\n'

def isMarker : List Char → Bool
  | '-' :: '-' :: '-' :: cs => endsWord cs
  | '.' :: '.' :: '.' :: cs => endsWord cs
  | _ => false

def skip (tabs always comment crossed : Bool) (column : Nat) :
    List Char → Nat × List Char × Bool
  | [] => (column, [], crossed)
  | c :: cs =>
      if c = '\n' then skip always always false true 0 cs
      else if comment then skip tabs always true crossed (column + 1) cs
      else if c = ' ' ∨ (c = '\t' ∧ tabs) then skip tabs always false crossed (column + 1) cs
      else if c = '#' then skip tabs always true crossed (column + 1) cs
      else (column, c :: cs, crossed)

namespace Cursor

def ofText (cs : List Char) : Cursor :=
  ⟨cs, 0, []⟩

def past (n : Nat) (c : Cursor) : Cursor :=
  { c with rest := c.rest.drop n, column := c.column + n }

def atEnd (c : Cursor) : Bool :=
  c.rest.isEmpty || (c.column = 0 && isMarker c.rest)

end Cursor

namespace Reader

def rest : Reader (List Char) := do
  return (← get).rest

def past (n : Nat) : Reader Unit :=
  modify (·.past n)

def toToken (tabs always : Bool) : Reader Bool := fun c =>
  let (column, rest, crossed) := skip tabs always false false c.column c.rest
  some (crossed, { c with column := column, rest := rest })

def char? (c : Char) : Reader Bool := do
  match ← rest with
  | d :: _ =>
      if d = c then
        past 1
        return true
      else return false
  | [] => return false

def repeatAtMost {α : Type} (p : Reader (Option α)) : Nat → Reader (List α)
  | 0 => failure
  | bound + 1 => do
      match ← p with
      | none => return []
      | some a => return a :: (← repeatAtMost p bound)

def gather {α : Type} (p : Reader (Option α)) : Reader (List α) := do
  repeatAtMost p ((← rest).length + 1)

end Reader

end ProviderManual.Yaml
