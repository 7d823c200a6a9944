/-! The text of a quoted literal is read item by item, and its bytes have to be UTF-8 as a whole. -/

namespace ProviderManual.Source

inductive LiteralError where
  | invalidString (raw : String)
  | invalidInt (raw : String)
  /-- The text is a single character of several bytes: taking off a first and a last byte cuts it. -/
  | splitsCharacter (raw : String)
  /-- A second minus sign is read as part of the number, which is then the least signed word. -/
  | overflowsNegated (raw : String)
  deriving DecidableEq, Repr

def LiteralError.message : LiteralError → String
  | .invalidString raw => "invalid string literal " ++ raw
  | .invalidInt raw => "invalid integer literal " ++ raw
  | .splitsCharacter raw => "character cut inside " ++ raw
  | .overflowsNegated raw => "negation overflows in " ++ raw

def isLoneWideChar (raw : String) : Bool :=
  match raw.toList with
  | [c] => 1 < c.utf8Size
  | _ => false

inductive Item where
  | char (c : Char)
  | byte (value : Nat)
  deriving DecidableEq, Repr

def digit? (radix : Nat) (c : Char) : Option Nat :=
  let value? :=
    if '0' ≤ c ∧ c ≤ '9' then some (c.toNat - '0'.toNat)
    else if 'a' ≤ c ∧ c ≤ 'z' then some (c.toNat - 'a'.toNat + 10)
    else if 'A' ≤ c ∧ c ≤ 'Z' then some (c.toNat - 'A'.toNat + 10)
    else none
  value?.filter (· < radix)

def digits (radix : Nat) : Nat → Nat → List Char → Option (Nat × List Char)
  | 0, value, cs => some (value, cs)
  | _ + 1, _, [] => none
  | count + 1, value, c :: cs =>
      match digit? radix c with
      | some d => digits radix count (value * radix + d) cs
      | none => none

theorem length_of_digits {radix count value : Nat} {cs rest : List Char} {n : Nat}
    (h : digits radix count value cs = some (n, rest)) : rest.length + count = cs.length := by
  induction count generalizing value cs with
  | zero => simp only [digits, Option.some.injEq, Prod.mk.injEq] at h; simp [h.2]
  | succ count ih =>
      cases cs with
      | nil => simp [digits] at h
      | cons c cs =>
          simp only [digits] at h
          split at h
          · have := ih h; simp only [List.length_cons]; omega
          · cases h

def scalar? (n : Nat) : Option Char :=
  if h : n.isValidChar then some ⟨n.toUInt32, by
    have : n < UInt32.size := Nat.lt_trans (by cases h <;> omega) (by decide : 0x110000 < UInt32.size)
    rwa [UInt32.isValidChar, UInt32.toNat_ofNat_of_lt' this]⟩
  else none

def simpleEscape? : Char → Option Char
  | 'a' => some '\x07'
  | 'b' => some '\x08'
  | 'f' => some '\x0c'
  | 'n' => some '\n'
  | 'r' => some '\r'
  | 't' => some '\t'
  | 'v' => some '\x0b'
  | '\\' => some '\\'
  | _ => none

def escape? (quote : Char) : List Char → Option (Item × List Char)
  | [] => none
  | e :: cs =>
      match simpleEscape? e with
      | some c => some (.char c, cs)
      | none =>
          if e = '\'' ∨ e = '"' then
            if e = quote then some (.char e, cs) else none
          else if e = 'x' then (digits 16 2 0 cs).map fun (n, rest) => (.byte n, rest)
          else if e = 'u' then (digits 16 4 0 cs).bind fun (n, rest) =>
            (scalar? n).map fun c => (.char c, rest)
          else if e = 'U' then (digits 16 8 0 cs).bind fun (n, rest) =>
            (scalar? n).map fun c => (.char c, rest)
          else if '0' ≤ e ∧ e ≤ '7' then (digits 8 3 0 (e :: cs)).bind fun (n, rest) =>
            if n ≤ 255 then some (.byte n, rest) else none
          else none

def item? (quote : Char) : List Char → Option (Item × List Char)
  | [] => none
  | c :: cs =>
      if c = quote then none
      else if c = '\\' then escape? quote cs
      else some (.char c, cs)

theorem length_of_escape? {quote : Char} {cs rest : List Char} {i : Item}
    (h : escape? quote cs = some (i, rest)) : rest.length < cs.length := by
  cases cs with
  | nil => simp [escape?] at h
  | cons e cs =>
      simp only [escape?] at h
      split at h
      · simp only [Option.some.injEq, Prod.mk.injEq] at h; simp [h.2]
      · split at h
        · split at h
          · simp only [Option.some.injEq, Prod.mk.injEq] at h; simp [h.2]
          · cases h
        · split at h
          · obtain ⟨⟨n, r⟩, hd, hr⟩ := Option.map_eq_some_iff.1 h
            have := length_of_digits hd
            simp only [Prod.mk.injEq] at hr
            rw [← hr.2, List.length_cons]; omega
          · split at h
            · obtain ⟨⟨n, r⟩, hd, hr⟩ := Option.bind_eq_some_iff.1 h
              obtain ⟨c, _, hr⟩ := Option.map_eq_some_iff.1 hr
              have := length_of_digits hd
              simp only [Prod.mk.injEq] at hr
              rw [← hr.2, List.length_cons]; omega
            · split at h
              · obtain ⟨⟨n, r⟩, hd, hr⟩ := Option.bind_eq_some_iff.1 h
                obtain ⟨c, _, hr⟩ := Option.map_eq_some_iff.1 hr
                have := length_of_digits hd
                simp only [Prod.mk.injEq] at hr
                rw [← hr.2, List.length_cons]; omega
              · split at h
                · obtain ⟨⟨n, r⟩, hd, hr⟩ := Option.bind_eq_some_iff.1 h
                  have := length_of_digits hd
                  split at hr
                  · simp only [Option.some.injEq, Prod.mk.injEq] at hr
                    rw [← hr.2]
                    simp only [List.length_cons] at this ⊢
                    omega
                  · cases hr
                · cases h

theorem length_of_item? {quote : Char} {cs rest : List Char} {i : Item}
    (h : item? quote cs = some (i, rest)) : rest.length < cs.length := by
  cases cs with
  | nil => simp [item?] at h
  | cons c cs =>
      simp only [item?] at h
      split at h
      · cases h
      · split at h
        · have := length_of_escape? h; simp only [List.length_cons]; omega
        · simp only [Option.some.injEq, Prod.mk.injEq] at h; simp [h.2]

def items? (quote : Char) (cs : List Char) : Option (List Item) :=
  match cs with
  | [] => some []
  | c :: cs =>
      match _h : item? quote (c :: cs) with
      | none => none
      | some (i, rest) => (items? quote rest).map (i :: ·)
termination_by cs.length
decreasing_by exact length_of_item? (by assumption)

/-- In a string a byte escape is that byte. -/
def Item.bytes : Item → List UInt8
  | .char c => String.utf8EncodeChar c
  | .byte n => [n.toUInt8]

/-- In a rune a byte escape is the code point of that number. -/
def Item.rune? : Item → Option Char
  | .char c => some c
  | .byte n => scalar? n

def interpreted? (inner : List Char) : Option String :=
  if '\n' ∈ inner then none
  else (items? '"' inner).bind fun is => String.fromUTF8? ⟨(is.flatMap Item.bytes).toArray⟩

def rune? (inner : List Char) : Option String :=
  match items? '\'' inner with
  | some [i] => i.rune?.map fun c => String.ofList [c]
  | _ => none

def raw? (inner : List Char) : Option String :=
  if '\x60' ∈ inner then none else some (String.ofList (inner.filter (· ≠ '\r')))

def inside? (quote : Char) (inner : List Char) : Option String :=
  if quote = '\x60' then raw? inner
  else if quote = '"' then interpreted? inner
  else if quote = '\'' then rune? inner
  else none

def unquote (raw : String) : Except LiteralError String :=
  if isLoneWideChar raw then .error (.splitsCharacter raw)
  else
    match raw.toList with
    | [] => .error (.invalidString raw)
    | quote :: rest =>
        if rest.getLast? = some quote then
          match inside? quote rest.dropLast with
          | some value => .ok value
          | none => .error (.invalidString raw)
        else .error (.invalidString raw)

def number? (radix : Nat) : Nat → List Char → Option Nat
  | value, [] => some value
  | value, c :: cs =>
      match digit? radix c with
      | some d => number? radix (value * radix + d) cs
      | none => none

def wordLimit : Int :=
  9223372036854775808

def signed? (radix : Nat) (cs : List Char) : Option Int :=
  let (negative, digits) := match cs with
    | '-' :: rest => (true, rest)
    | '+' :: rest => (false, rest)
    | rest => (false, rest)
  if digits = [] then none
  else match number? radix 0 digits with
    | none => none
    | some n =>
        let value : Int := if negative then -(n : Int) else n
        if -wordLimit ≤ value ∧ value < wordLimit then some value else none

def baseOf : List Char → Nat × List Char
  | '0' :: 'x' :: rest | '0' :: 'X' :: rest => (16, rest)
  | '0' :: 'b' :: rest | '0' :: 'B' :: rest => (2, rest)
  | '0' :: 'o' :: rest | '0' :: 'O' :: rest => (8, rest)
  | '0' :: c :: rest => (8, c :: rest)
  | cs => (10, cs)

def parseInt (raw : String) : Except LiteralError Int :=
  let (negative, body) := match raw.toList with
    | '-' :: rest => (true, rest)
    | rest => (false, rest)
  let (radix, number) := baseOf (body.filter (· ≠ '_'))
  match signed? radix number with
  | none => .error (.invalidInt raw)
  | some value =>
      if negative then
        if -value < wordLimit then .ok (-value) else .error (.overflowsNegated raw)
      else .ok value

end ProviderManual.Source
