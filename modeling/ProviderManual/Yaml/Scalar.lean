import ProviderManual.Text.Pieces
import ProviderManual.Yaml.Basic

/-! A line end inside a text reads as a space, and a blank line as a line end. -/

namespace ProviderManual.Yaml

def folded (lineEnds : Nat) : List Char :=
  if lineEnds = 1 then [' '] else List.replicate (lineEnds - 1) '\n'

def isFlowMark (c : Char) : Bool :=
  c = ',' || c = '[' || c = ']' || c = '\x7b' || c = '\x7d'

def plainLength (flow afterBlank : Bool) : List Char → Option Nat
  | [] => some 0
  | c :: cs =>
      if c = '\n' then some 0
      else if c = '#' ∧ afterBlank then some 0
      else if c = ':' ∧ endsWord cs then some 0
      else if c = ':' ∧ flow ∧ (cs.head?.any fun d => isFlowMark d || d = '?') then none
      else if flow ∧ isFlowMark c then some 0
      else (plainLength flow (isBlank c) cs).map (· + 1)

def startsPlain (flow : Bool) : List Char → Bool
  | [] => false
  | c :: cs =>
      if c = '-' then !(cs.head?.any isBlank)
      else if c = '?' ∨ c = ':' then !flow && !endsWord cs
      else !(isBlank c || c = '\n' || isFlowMark c || "#&*!|>'\"%@\x60".toList.contains c)

def lineEndsAhead (count column : Nat) : List Char → Nat × Nat × List Char
  | '\n' :: cs => lineEndsAhead (count + 1) 0 cs
  | ' ' :: cs => lineEndsAhead count (column + 1) cs
  | '\t' :: cs => lineEndsAhead count (column + 1) cs
  | cs => (count, column, cs)

namespace Reader

def plainLine (flow : Bool) : Reader (List Char) := do
  let cs ← rest
  match plainLength flow true cs with
  | none => failure
  | some n =>
      let line := Text.trimEnd (cs.take n)
      past line.length
      return line

def plainContinuation (flow : Bool) (indent : Nat) : Reader (Option (List Char)) := do
  let c ← get
  let (count, column, cs) := lineEndsAhead 0 c.column c.rest
  if count = 0 ∨ (!flow ∧ column < indent) ∨ cs.head? = some '#' ∨ (column = 0 ∧ isMarker cs) then
    return none
  else
    match plainLength flow true cs with
    | none => failure
    | some 0 => return none
    | some _ =>
        set { c with rest := cs, column := column }
        return some (folded count ++ (← plainLine flow))

def plain (flow : Bool) (indent : Nat) : Reader Node := do
  if !startsPlain flow (← rest) then failure
  let first ← plainLine flow
  let more ← gather (plainContinuation flow indent)
  return .scalar (String.ofList (first ++ more.flatten)) true

end Reader

def escape? : Char → Option (Char ⊕ Nat)
  | '0' => some (.inl '\x00')
  | 'a' => some (.inl '\x07')
  | 'b' => some (.inl '\x08')
  | 't' | '\t' => some (.inl '\t')
  | 'n' => some (.inl '\n')
  | 'v' => some (.inl '\x0b')
  | 'f' => some (.inl '\x0c')
  | 'r' => some (.inl '\r')
  | 'e' => some (.inl '\x1b')
  | ' ' => some (.inl ' ')
  | '"' => some (.inl '"')
  | '/' => some (.inl '/')
  | '\\' => some (.inl '\\')
  | 'N' => some (.inl '\x85')
  | '_' => some (.inl '\xa0')
  | 'L' => some (.inl '\u2028')
  | 'P' => some (.inl '\u2029')
  | 'x' => some (.inr 2)
  | 'u' => some (.inr 4)
  | 'U' => some (.inr 8)
  | _ => none

def hexDigit? (c : Char) : Option Nat :=
  if '0' ≤ c ∧ c ≤ '9' then some (c.toNat - '0'.toNat)
  else if 'a' ≤ c ∧ c ≤ 'f' then some (c.toNat - 'a'.toNat + 10)
  else if 'A' ≤ c ∧ c ≤ 'F' then some (c.toNat - 'A'.toNat + 10)
  else none

def codePoint? (digits : List Char) : Option Char := do
  let values ← digits.mapM hexDigit?
  let n := values.foldl (fun n d => 16 * n + d) 0
  if h : n.isValidChar then some (Char.ofNatAux n h) else none

structure Quoted where
  text : List Char
  column : Nat
  rest : List Char
  oneLine : Bool

def Quoted.add (cs : List Char) (q : Quoted) : Quoted :=
  { q with text := cs ++ q.text }

inductive Step where
  | done
  | take (text : List Char) (length : Nat)
  | fold (text : List Char) (column : Nat) (rest : List Char)
  | fail

def foldStep (escaped : Bool) (column : Nat) (cs : List Char) : Step :=
  let (count, after, rest) := lineEndsAhead 0 column cs
  if count = 0 then
    let blanks := cs.takeWhile isBlank
    .take blanks blanks.length
  else if after = 0 ∧ isMarker rest then .fail
  else if escaped then .fold (List.replicate (count - 1) '\n') after rest
  else .fold (folded count) after rest

def quotedStep (quote : Char) (column : Nat) : List Char → Step
  | [] => .fail
  | c :: cs =>
      if isBlank c ∨ c = '\n' then foldStep false column (c :: cs)
      else if quote = '\'' then
        if c ≠ '\'' then .take [c] 1
        else if cs.head? = some '\'' then .take ['\''] 2
        else .done
      else if c = '"' then .done
      else if c = '\\' then
        match cs with
        | [] => .fail
        | '\n' :: _ => foldStep true column cs
        | e :: ds =>
            match escape? e with
            | none => .fail
            | some (.inl d) => .take [d] 2
            | some (.inr n) =>
                if (ds.take n).length < n then .fail
                else
                  match codePoint? (ds.take n) with
                  | some d => .take [d] (2 + n)
                  | none => .fail
      else .take [c] 1

def quotedAtMost (quote : Char) : Nat → Nat → List Char → Option Quoted
  | 0, _, _ => none
  | bound + 1, column, cs =>
      match quotedStep quote column cs with
      | .fail => none
      | .done => some ⟨[], column + 1, cs.drop 1, true⟩
      | .take text n => (quotedAtMost quote bound (column + n) (cs.drop n)).map (·.add text)
      | .fold text column rest =>
          (quotedAtMost quote bound column rest).map fun q =>
            { q.add text with oneLine := false }

namespace Reader

def quoted (quote : Char) : Reader (Node × Bool) := do
  past 1
  let c ← get
  match quotedAtMost quote (c.rest.length + 1) c.column c.rest with
  | none => failure
  | some q =>
      set { c with rest := q.rest, column := q.column }
      return (.scalar (String.ofList q.text) false, q.oneLine)

end Reader

inductive Chomp where
  | clip
  | strip
  | keep
  deriving DecidableEq, Repr

structure BlockHeader where
  literal : Bool
  chomp : Chomp
  indent : Option Nat

def BlockHeader.marks (h : BlockHeader) : List Char → Option (BlockHeader × List Char)
  | [] => some (h, [])
  | c :: cs =>
      if c = '+' ∨ c = '-' then
        if h.chomp ≠ .clip then none
        else BlockHeader.marks { h with chomp := if c = '+' then .keep else .strip } cs
      else if '1' ≤ c ∧ c ≤ '9' then
        if h.indent.isSome then none
        else BlockHeader.marks { h with indent := some (c.toNat - '0'.toNat) } cs
      else some (h, c :: cs)

def indentOf (line : List Char) : Nat :=
  (line.takeWhile (· = ' ')).length

def detectIndent (widest : Nat) : List (List Char) → Nat
  | [] => widest
  | line :: lines =>
      let n := indentOf line
      if n = line.length then detectIndent (max widest n) lines else max widest n

structure BlockText where
  text : List Char
  lineEnd : List Char
  blankEnds : List Char
  afterBlank : Bool

def blockLines (literal : Bool) (indent : Nat) (b : BlockText) :
    List (List Char) → BlockText × List (List Char)
  | [] => (b, [])
  | line :: lines =>
      if line.all (· = ' ') ∧ line.length ≤ indent then
        match lines with
        | [] => (b, [[]])
        | lines => blockLines literal indent { b with blankEnds := '\n' :: b.blankEnds } lines
      else if indentOf line < indent then (b, line :: lines)
      else
        let content := line.drop indent
        let startsBlank := content.head?.any isBlank
        let joint :=
          if !literal ∧ b.lineEnd ≠ [] ∧ !b.afterBlank ∧ !startsBlank then
            if b.blankEnds = [] then [' '] else b.blankEnds
          else b.lineEnd ++ b.blankEnds
        let next : BlockText := ⟨b.text ++ joint ++ content, ['\n'], [], startsBlank⟩
        match lines with
        | [] => ({ next with lineEnd := [] }, [])
        | lines => blockLines literal indent next lines

def BlockText.chomped (b : BlockText) : Chomp → List Char
  | .clip => b.text ++ b.lineEnd
  | .strip => b.text
  | .keep => b.text ++ b.lineEnd ++ b.blankEnds

namespace Reader

def blockText (literal : Bool) (indent : Nat) : Reader Node := do
  past 1
  match BlockHeader.marks ⟨literal, .clip, none⟩ (← rest) with
  | none => failure
  | some (h, cs) =>
      let after := cs.dropWhile isBlank
      let isComment := after.head? = some '#' && after.length < cs.length
      let after := if isComment then after.dropWhile (· ≠ '\n') else after
      match after with
      | [] => return .scalar "" false
      | '\n' :: cs =>
          let lines := Text.pieces '\n' cs
          let least := max indent 1
          let deep := match h.indent with
            | some n => indent - 1 + n
            | none => max (detectIndent 0 lines) least
          let (b, lines) := blockLines literal deep ⟨[], [], [], false⟩ lines
          modify fun c => { c with
            rest := (List.intersperse ['\n'] lines).flatten, column := 0 }
          return .scalar (String.ofList (b.chomped h.chomp)) false
      | _ => failure

end Reader

end ProviderManual.Yaml
