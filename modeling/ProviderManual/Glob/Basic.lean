import ProviderManual.Text.Order

/-! A pattern is matched against all bytes of a path; a wildcard takes separators as well. -/

namespace ProviderManual.Glob

inductive Part where
  | char (c : Char)
  | any
  | many
  | directoriesFirst
  | directories
  | directoriesLast
  | range (negated : Bool) (ranges : List (Char × Char))
  | oneOf (branches : List (List Part))
  deriving Repr

abbrev Pattern := List Part

def rangeHas (b : UInt8) (range : Char × Char) : Bool :=
  let first := Text.utf8Bytes (String.singleton range.1)
  let last := Text.utf8Bytes (String.singleton range.2)
  first.contains b || last.contains b ||
    match first.getLast?, last.head? with
    | some low, some high => range.1 ≠ range.2 && low ≤ b && b ≤ high
    | _, _ => false

/-- The places in a text that are reached: one flag for each byte, for the place before it, and one for the
place after the last byte. -/
abbrev Reach := List Bool

namespace Reach

def step (passes : UInt8 → Bool) (bytes : List UInt8) (reach : Reach) : Reach :=
  false :: List.zipWith (fun b here => here && passes b) bytes reach

def spread (before : Bool) : Reach → Reach
  | [] => []
  | here :: rest => (before || here) :: spread (before || here) rest

def union (a b : Reach) : Reach :=
  List.zipWith (· || ·) a b

def separator (bytes : List UInt8) (reach : Reach) : Reach :=
  reach.step (· = 0x2f) bytes

def start (bytes : List UInt8) : Reach :=
  true :: bytes.map fun _ => false

def atEnd (reach : Reach) : Bool :=
  reach.getLast?.getD false

end Reach

mutual

def Part.isVacant : Part → Bool
  | .oneOf branches => allVacant branches
  | _ => false

def isVacant : List Part → Bool
  | [] => true
  | p :: ps => p.isVacant && isVacant ps

def allVacant : List (List Part) → Bool
  | [] => true
  | b :: bs => isVacant b && allVacant bs

end

mutual

def Part.advance (bytes : List UInt8) (reach : Reach) : Part → Reach
  | .char c =>
      (Text.utf8Bytes (String.singleton c)).foldl (fun reach b => reach.step (· = b) bytes) reach
  | .any => reach.step (fun _ => true) bytes
  | .many => reach.spread false
  | .directoriesFirst => reach.union ((reach.spread false).separator bytes)
  | .directories =>
      let after := reach.separator bytes
      after.union ((after.spread false).separator bytes)
  | .directoriesLast => (reach.separator bytes).spread false
  | .range negated ranges => reach.step (fun b => ranges.any (rangeHas b) != negated) bytes
  | .oneOf branches => if allVacant branches then reach else advanceAny bytes reach branches

def advanceAll (bytes : List UInt8) (reach : Reach) : List Part → Reach
  | [] => reach
  | p :: ps => advanceAll bytes (p.advance bytes reach) ps

def advanceAny (bytes : List UInt8) (reach : Reach) : List (List Part) → Reach
  | [] => reach.map fun _ => false
  | b :: bs =>
      let rest := advanceAny bytes reach bs
      if isVacant b then rest else (advanceAll bytes reach b).union rest

end

def Pattern.isMatch (p : Pattern) (path : String) : Bool :=
  match p with
  | [.directoriesFirst] => true
  | _ =>
      let bytes := Text.utf8Bytes path
      (advanceAll bytes (.start bytes) p).atEnd

end ProviderManual.Glob
