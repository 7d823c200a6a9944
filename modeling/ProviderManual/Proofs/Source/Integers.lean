import ProviderManual.Proofs.Source.Literals

/-! Integer literals, and what is read as one. -/

namespace ProviderManual.Source

def baseMarks : List (Char × Nat) :=
  [('x', 16), ('X', 16), ('b', 2), ('B', 2), ('o', 8), ('O', 8)]

structure DigitRun (radix : Nat) (cs : List Char) (n : Nat) : Prop where
  ne_nil : cs ≠ []
  numeral : Numeral radix cs.length cs n

/-- The text is the characters with single underscores between some of them. -/
inductive Spaced : List Char → List Char → Prop where
  | one {c : Char} : Spaced [c] [c]
  | next {c : Char} {cs text : List Char} : Spaced cs text → Spaced (c :: cs) (c :: text)
  | apart {c : Char} {cs text : List Char} : Spaced cs text → Spaced (c :: cs) (c :: '_' :: text)

inductive IntegerLiteral : List Char → Nat → Prop where
  | zero : IntegerLiteral ['0'] 0
  | decimal {cs text : List Char} {n : Nat} : cs.head? ≠ some '0' → DigitRun 10 cs n →
      Spaced cs text → IntegerLiteral text n
  | octal {cs text : List Char} {n : Nat} : DigitRun 8 cs n → Spaced ('0' :: cs) text →
      IntegerLiteral text n
  | marked {mark : Char} {radix n : Nat} {cs text : List Char} : (mark, radix) ∈ baseMarks →
      DigitRun radix cs n → Spaced (mark :: cs) text → IntegerLiteral ('0' :: text) n

inductive BareDigits (radix : Nat) : List Char → Int → Prop where
  | bare {cs : List Char} {n : Nat} : DigitRun radix cs n → BareDigits radix cs n

inductive SignedDigits (radix : Nat) : List Char → Int → Prop where
  | bare {cs : List Char} {n : Nat} : DigitRun radix cs n → SignedDigits radix cs n
  | plus {cs : List Char} {n : Nat} : DigitRun radix cs n → SignedDigits radix ('+' :: cs) n
  | minus {cs : List Char} {n : Nat} : DigitRun radix cs n → SignedDigits radix ('-' :: cs) (-n)

/-- A base prefix, and after it what `P` takes for a value in that base. -/
inductive Based (P : Nat → List Char → Int → Prop) : List Char → Int → Prop where
  | decimal {cs : List Char} {v : Int} : cs = ['0'] ∨ cs.head? ≠ some '0' → P 10 cs v →
      Based P cs v
  | octal {cs : List Char} {v : Int} : P 8 cs v → Based P ('0' :: cs) v
  | marked {mark : Char} {radix : Nat} {cs : List Char} {v : Int} : (mark, radix) ∈ baseMarks →
      P radix cs v → Based P ('0' :: mark :: cs) v

def withoutUnderscores (cs : List Char) : List Char :=
  cs.filter (· ≠ '_')

/-- An integer without underscores: an optional minus sign, a base prefix and digits. -/
inductive IntegerText : List Char → Prop where
  | bare {cs : List Char} {v : Int} : Based BareDigits cs v → IntegerText cs
  | negative {cs : List Char} {v : Int} : Based BareDigits cs v → IntegerText ('-' :: cs)

abbrev FitsWord (v : Int) : Prop :=
  -wordLimit ≤ v ∧ v < wordLimit

/-- What is read, and as which number: a minus sign in front turns the sign of what follows. -/
inductive ReadAs : List Char → Int → Prop where
  | plain {cs : List Char} {v : Int} : cs.head? ≠ some '-' →
      Based SignedDigits (withoutUnderscores cs) v → FitsWord v → ReadAs cs v
  | turned {cs : List Char} {v : Int} : Based SignedDigits (withoutUnderscores cs) v →
      FitsWord v → FitsWord (-v) → ReadAs ('-' :: cs) (-v)

section Digits

variable {radix value n : Nat} {c mark : Char} {cs : List Char} {v : Int}

theorem digits_length_eq :
    digits radix cs.length value cs = (number? radix value cs).map fun n => (n, []) := by
  induction cs generalizing value with
  | nil => rfl
  | cons c cs ih =>
      simp only [List.length_cons, digits, number?]
      split
      · exact ih
      · rfl

theorem number?_eq_some_iff (hradix : radix ≤ 16) :
    number? radix 0 cs = some n ↔ Numeral radix cs.length cs n := by
  have hdigits : number? radix 0 cs = some n ↔ digits radix cs.length 0 cs = some (n, []) := by
    simp [digits_length_eq]
  rw [hdigits, digits_zero_eq_some_iff hradix]
  simp only [List.append_nil]
  constructor
  · rintro ⟨text, rfl, h⟩
    exact h
  · intro h
    exact ⟨cs, rfl, h⟩

theorem DigitRun.not_mem (hradix : radix ≤ 16) (hc : digit? radix c = none)
    (h : DigitRun radix cs n) : c ∉ cs := by
  intro hmem
  obtain ⟨d, hd⟩ := h.numeral.exists_isDigit hmem
  rw [(digit?_eq_some_iff hradix).2 hd] at hc
  cases hc

theorem DigitRun.sign_not_mem (hradix : radix ≤ 16) (h : DigitRun radix cs n) :
    '+' ∉ cs ∧ '-' ∉ cs :=
  ⟨h.not_mem hradix rfl, h.not_mem hradix rfl⟩

theorem DigitRun.underscore_not_mem (hradix : radix ≤ 16) (h : DigitRun radix cs n) : '_' ∉ cs :=
  h.not_mem hradix rfl

theorem baseMark_of_mem (h : (mark, radix) ∈ baseMarks) :
    radix ≤ 16 ∧ digit? 8 mark = none ∧ mark ≠ '+' ∧ mark ≠ '-' ∧ mark ≠ '_' := by
  have hall : ∀ p ∈ baseMarks,
      p.2 ≤ 16 ∧ digit? 8 p.1 = none ∧ p.1 ≠ '+' ∧ p.1 ≠ '-' ∧ p.1 ≠ '_' := by decide
  exact hall (mark, radix) h

def valued? (radix : Nat) (f : Int → Int) (cs : List Char) : Option Int :=
  if cs = [] then none
  else match number? radix 0 cs with
    | none => none
    | some n => if FitsWord (f n) then some (f n) else none

theorem valued?_of_digitRun {f : Int → Int} (hradix : radix ≤ 16) (h : DigitRun radix cs n) :
    valued? radix f cs = if FitsWord (f n) then some (f n) else none := by
  rw [valued?, if_neg h.ne_nil, (number?_eq_some_iff hradix).2 h.numeral]

theorem exists_digitRun_of_valued? {f : Int → Int} (hradix : radix ≤ 16)
    (h : valued? radix f cs = some v) : ∃ n : Nat, DigitRun radix cs n ∧ v = f n ∧ FitsWord v := by
  unfold valued? at h
  split_ifs at h with hnil
  split at h
  · cases h
  next n hn =>
    split_ifs at h with hfits
    cases h
    exact ⟨n, ⟨hnil, (number?_eq_some_iff hradix).1 hn⟩, rfl, hfits⟩

theorem signed?_plus : signed? radix ('+' :: cs) = valued? radix id cs := by
  rfl

theorem signed?_minus : signed? radix ('-' :: cs) = valued? radix Neg.neg cs := by
  rfl

theorem signed?_of_no_sign (hplus : cs.head? ≠ some '+') (hminus : cs.head? ≠ some '-') :
    signed? radix cs = valued? radix id cs := by
  unfold signed?
  split
  next heq =>
    split at heq
    · simp at hminus
    · simp at hplus
    · cases heq
      rfl

theorem DigitRun.signed?_eq (hradix : radix ≤ 16) (h : DigitRun radix cs n) :
    signed? radix cs = if FitsWord n then some (n : Int) else none := by
  obtain ⟨hplus, hminus⟩ := h.sign_not_mem hradix
  rw [signed?_of_no_sign (fun hc => hplus (List.mem_of_mem_head? hc))
    (fun hc => hminus (List.mem_of_mem_head? hc)), valued?_of_digitRun hradix h]
  rfl

theorem SignedDigits.signed?_eq (hradix : radix ≤ 16) (h : SignedDigits radix cs v) :
    signed? radix cs = if FitsWord v then some v else none := by
  cases h with
  | bare h => exact h.signed?_eq hradix
  | plus h => rw [signed?_plus, valued?_of_digitRun hradix h]; rfl
  | minus h => rw [signed?_minus, valued?_of_digitRun hradix h]

theorem signed?_eq_some_iff (hradix : radix ≤ 16) :
    signed? radix cs = some v ↔ SignedDigits radix cs v ∧ FitsWord v := by
  constructor
  · intro h
    -- the first character tells which sign was taken off
    by_cases hplus : cs.head? = some '+'
    · obtain ⟨rest, rfl⟩ := List.head?_eq_some_iff.1 hplus
      obtain ⟨n, hn, rfl, hfits⟩ := exists_digitRun_of_valued? hradix (signed?_plus.symm.trans h)
      exact ⟨.plus hn, hfits⟩
    · by_cases hminus : cs.head? = some '-'
      · obtain ⟨rest, rfl⟩ := List.head?_eq_some_iff.1 hminus
        obtain ⟨n, hn, rfl, hfits⟩ := exists_digitRun_of_valued? hradix (signed?_minus.symm.trans h)
        exact ⟨.minus hn, hfits⟩
      · rw [signed?_of_no_sign hplus hminus] at h
        obtain ⟨n, hn, rfl, hfits⟩ := exists_digitRun_of_valued? hradix h
        exact ⟨.bare hn, hfits⟩
  · rintro ⟨h, hfits⟩
    rw [h.signed?_eq hradix, if_pos hfits]

end Digits

section Bases

variable {P : Nat → List Char → Int → Prop} {radix : Nat} {c mark : Char} {cs : List Char} {v : Int}

theorem baseOf_marked (h : (mark, radix) ∈ baseMarks) :
    baseOf ('0' :: mark :: cs) = (radix, cs) := by
  simp only [baseMarks, List.mem_cons, Prod.mk.injEq, List.not_mem_nil, or_false] at h
  rcases h with ⟨rfl, rfl⟩ | ⟨rfl, rfl⟩ | ⟨rfl, rfl⟩ | ⟨rfl, rfl⟩ | ⟨rfl, rfl⟩ | ⟨rfl, rfl⟩ <;> rfl

theorem baseOf_octal (h : ∀ p ∈ baseMarks, p.1 ≠ c) : baseOf ('0' :: c :: cs) = (8, c :: cs) := by
  unfold baseOf
  split <;> simp_all [baseMarks]

theorem baseOf_decimal (h : cs = ['0'] ∨ cs.head? ≠ some '0') : baseOf cs = (10, cs) := by
  unfold baseOf
  split <;> simp_all

theorem baseOf_cases (cs : List Char) :
    (∃ mark radix rest, cs = '0' :: mark :: rest ∧ (mark, radix) ∈ baseMarks ∧
      baseOf cs = (radix, rest)) ∨
    (∃ rest, cs = '0' :: rest ∧ baseOf cs = (8, rest)) ∨
    (cs = ['0'] ∨ cs.head? ≠ some '0') ∧ baseOf cs = (10, cs) := by
  by_cases h : cs = ['0'] ∨ cs.head? ≠ some '0'
  · exact .inr (.inr ⟨h, baseOf_decimal h⟩)
  · obtain ⟨hne, hzero⟩ := not_or.1 h
    obtain ⟨rest, rfl⟩ := List.head?_eq_some_iff.1 (Classical.not_not.1 hzero)
    have hrest : rest ≠ [] := fun hnil => hne (by rw [hnil])
    obtain ⟨c, rest, rfl⟩ := List.exists_cons_of_ne_nil hrest
    -- a zero with more behind it: octal, unless a letter names another base
    by_cases hmark : ∃ radix, (c, radix) ∈ baseMarks
    · obtain ⟨radix, hmark⟩ := hmark
      exact .inl ⟨c, radix, rest, rfl, hmark, baseOf_marked hmark⟩
    · have hc : ∀ p ∈ baseMarks, p.1 ≠ c := by
        rintro ⟨mark, radix⟩ hp rfl
        exact hmark ⟨radix, hp⟩
      exact .inr (.inl ⟨c :: rest, rfl, baseOf_octal hc⟩)

theorem radix_baseOf_le (cs : List Char) : (baseOf cs).1 ≤ 16 := by
  rcases baseOf_cases cs with ⟨mark, radix, rest, -, hmark, hbase⟩ | ⟨rest, -, hbase⟩ | ⟨-, hbase⟩
  · rw [hbase]
    exact (baseMark_of_mem hmark).1
  · simp [hbase]
  · simp [hbase]

theorem based_of_baseOf (h : P (baseOf cs).1 (baseOf cs).2 v) : Based P cs v := by
  rcases baseOf_cases cs with
    ⟨mark, radix, rest, rfl, hmark, hbase⟩ | ⟨rest, rfl, hbase⟩ | ⟨hzero, hbase⟩
  · rw [hbase] at h
    exact .marked hmark h
  · rw [hbase] at h
    exact .octal h
  · rw [hbase] at h
    exact .decimal hzero h

theorem SignedDigits.eq_cons (h : SignedDigits 8 cs v) :
    ∃ c rest, cs = c :: rest ∧ ∀ p ∈ baseMarks, p.1 ≠ c := by
  cases h with
  | @bare cs n h =>
      obtain ⟨c, rest, rfl⟩ := List.exists_cons_of_ne_nil h.ne_nil
      refine ⟨c, rest, rfl, ?_⟩
      rintro ⟨mark, radix⟩ hp rfl
      exact h.not_mem (by decide) (baseMark_of_mem hp).2.1 List.mem_cons_self
  | plus h => exact ⟨_, _, rfl, by decide⟩
  | minus h => exact ⟨_, _, rfl, by decide⟩

theorem Based.of_signedDigits (h : Based SignedDigits cs v) :
    SignedDigits (baseOf cs).1 (baseOf cs).2 v := by
  cases h with
  | decimal hzero h =>
      rw [baseOf_decimal hzero]
      exact h
  | octal h =>
      -- signed digits start with no letter of a base, so that the zero announces octal ones
      obtain ⟨c, rest, rfl, hc⟩ := h.eq_cons
      rw [baseOf_octal hc]
      exact h
  | marked hmark h =>
      rw [baseOf_marked hmark]
      exact h

theorem Based.imp {Q : Nat → List Char → Int → Prop} (h : Based P cs v)
    (hPQ : ∀ radix rest, rest <:+ cs → P radix rest v → Q radix rest v) : Based Q cs v := by
  cases h with
  | decimal hzero h => exact .decimal hzero (hPQ _ _ List.suffix_rfl h)
  | octal h => exact .octal (hPQ _ _ (List.suffix_cons _ _) h)
  | @marked mark radix cs _ hmark h =>
      have hsuffix : cs <:+ '0' :: mark :: cs := List.suffix_append ['0', mark] cs
      exact .marked hmark (hPQ _ _ hsuffix h)

theorem BareDigits.signedDigits (h : BareDigits radix cs v) : SignedDigits radix cs v := by
  cases h with
  | bare h => exact .bare h

theorem SignedDigits.bareDigits (h : SignedDigits radix cs v) (hplus : '+' ∉ cs)
    (hminus : '-' ∉ cs) : BareDigits radix cs v := by
  cases h with
  | bare h => exact .bare h
  | plus h => exact absurd List.mem_cons_self hplus
  | minus h => exact absurd List.mem_cons_self hminus

theorem Based.bareDigits (h : Based SignedDigits cs v) (hplus : '+' ∉ cs) (hminus : '-' ∉ cs) :
    Based BareDigits cs v :=
  h.imp fun _ _ hsuffix hrest =>
    hrest.bareDigits (mt (fun hc => hsuffix.subset hc) hplus)
      (mt (fun hc => hsuffix.subset hc) hminus)

theorem BareDigits.sign_not_mem (hradix : radix ≤ 16) (h : BareDigits radix cs v) :
    '+' ∉ cs ∧ '-' ∉ cs := by
  cases h with
  | bare h => exact h.sign_not_mem hradix

theorem Based.sign_not_mem (h : Based BareDigits cs v) : '+' ∉ cs ∧ '-' ∉ cs := by
  cases h with
  | decimal _ h => exact h.sign_not_mem (by decide)
  | octal h => simpa using h.sign_not_mem (by decide)
  | marked hmark h =>
      obtain ⟨hradix, -, hplus, hminus, -⟩ := baseMark_of_mem hmark
      simpa [hplus.symm, hminus.symm] using h.sign_not_mem hradix

theorem BareDigits.nonneg (h : BareDigits radix cs v) : 0 ≤ v := by
  cases h with
  | bare => exact Int.natCast_nonneg _

theorem Based.nonneg (h : Based BareDigits cs v) : 0 ≤ v := by
  cases h with
  | decimal _ h => exact h.nonneg
  | octal h => exact h.nonneg
  | marked _ h => exact h.nonneg

def numberIn? (cs : List Char) : Option Int :=
  signed? (baseOf (withoutUnderscores cs)).1 (baseOf (withoutUnderscores cs)).2

theorem numberIn?_of_based (h : Based SignedDigits (withoutUnderscores cs) v) :
    numberIn? cs = if FitsWord v then some v else none :=
  h.of_signedDigits.signed?_eq (radix_baseOf_le _)

theorem numberIn?_eq_some_iff :
    numberIn? cs = some v ↔ Based SignedDigits (withoutUnderscores cs) v ∧ FitsWord v := by
  constructor
  · intro h
    obtain ⟨hdigits, hfits⟩ := (signed?_eq_some_iff (radix_baseOf_le _)).1 h
    exact ⟨based_of_baseOf hdigits, hfits⟩
  · rintro ⟨h, hfits⟩
    rw [numberIn?_of_based h, if_pos hfits]

end Bases

section Reading

variable {raw : String} {n : Nat} {c : Char} {cs text : List Char} {v : Int}

theorem parseInt_of_head_ne (h : raw.toList.head? ≠ some '-') :
    parseInt raw =
      match numberIn? raw.toList with
      | none => .error (.invalidInt raw)
      | some v => .ok v := by
  unfold parseInt
  split
  next heq =>
    split at heq
    · next hraw => simp [hraw] at h
    · cases heq
      rfl

theorem parseInt_of_minus (h : raw.toList = '-' :: cs) :
    parseInt raw =
      match numberIn? cs with
      | none => .error (.invalidInt raw)
      | some v => if -v < wordLimit then .ok (-v) else .error (.overflowsNegated raw) := by
  unfold parseInt
  rw [h]
  rfl

theorem parseInt_eq_ok_iff : parseInt raw = .ok v ↔ ReadAs raw.toList v := by
  constructor
  · intro h
    by_cases hraw : raw.toList.head? = some '-'
    · obtain ⟨rest, hraw⟩ := List.head?_eq_some_iff.1 hraw
      rw [parseInt_of_minus hraw] at h
      split at h
      · cases h
      next w hw =>
        split_ifs at h with hlt
        cases h
        obtain ⟨hbased, hfits⟩ := numberIn?_eq_some_iff.1 hw
        rw [hraw]
        exact .turned hbased hfits ⟨by omega, hlt⟩
    · rw [parseInt_of_head_ne hraw] at h
      split at h
      · cases h
      next w hw =>
        cases h
        obtain ⟨hbased, hfits⟩ := numberIn?_eq_some_iff.1 hw
        exact .plain hraw hbased hfits
  · intro h
    generalize hcs : raw.toList = cs at h
    cases h with
    | plain hhead hbased hfits =>
        rw [parseInt_of_head_ne (hcs ▸ hhead), hcs, numberIn?_eq_some_iff.2 ⟨hbased, hfits⟩]
    | turned hbased hfits hfits' =>
        rw [parseInt_of_minus hcs, numberIn?_eq_some_iff.2 ⟨hbased, hfits⟩]
        exact if_pos hfits'.2

theorem parseInt_overflows_iff : parseInt raw = .error (.overflowsNegated raw) ↔
    ∃ cs, raw.toList = '-' :: cs ∧ Based SignedDigits (withoutUnderscores cs) (-wordLimit) := by
  constructor
  · intro h
    by_cases hraw : raw.toList.head? = some '-'
    · obtain ⟨rest, hraw⟩ := List.head?_eq_some_iff.1 hraw
      rw [parseInt_of_minus hraw] at h
      split at h
      · cases h
      next w hw =>
        split_ifs at h with hlt
        obtain ⟨hbased, hfits⟩ := numberIn?_eq_some_iff.1 hw
        have hleast : w = -wordLimit := by
          unfold FitsWord at hfits
          omega
        exact ⟨rest, hraw, hleast ▸ hbased⟩
    · rw [parseInt_of_head_ne hraw] at h
      split at h <;> cases h
  · rintro ⟨rest, hraw, hbased⟩
    have hfits : FitsWord (-wordLimit) := by decide
    rw [parseInt_of_minus hraw, numberIn?_eq_some_iff.2 ⟨hbased, hfits⟩]
    exact if_neg (by decide)

theorem fitsWord_natCast_iff : FitsWord (n : Int) ↔ n ≤ 2 ^ 63 - 1 := by
  unfold FitsWord wordLimit
  omega

theorem withoutUnderscores_cons (hc : c ≠ '_') :
    withoutUnderscores (c :: cs) = c :: withoutUnderscores cs := by
  simp [withoutUnderscores, hc]

theorem withoutUnderscores_underscore :
    withoutUnderscores ('_' :: cs) = withoutUnderscores cs := by
  simp [withoutUnderscores]

theorem Spaced.head?_eq (h : Spaced cs text) : text.head? = cs.head? := by
  cases h <;> rfl

theorem Spaced.withoutUnderscores_eq (h : Spaced cs text) (hcs : '_' ∉ cs) :
    withoutUnderscores text = cs := by
  induction h with
  | one =>
      rw [withoutUnderscores_cons (List.ne_of_not_mem_cons hcs).symm]
      rfl
  | next _ ih =>
      obtain ⟨hc, hcs⟩ := List.ne_and_not_mem_of_not_mem_cons hcs
      rw [withoutUnderscores_cons hc.symm, ih hcs]
  | apart _ ih =>
      obtain ⟨hc, hcs⟩ := List.ne_and_not_mem_of_not_mem_cons hcs
      rw [withoutUnderscores_cons hc.symm, withoutUnderscores_underscore, ih hcs]

theorem IntegerLiteral.based (h : IntegerLiteral text n) :
    Based BareDigits (withoutUnderscores text) n := by
  cases h with
  | zero =>
      have hzero : DigitRun 10 ['0'] 0 := ⟨by decide, [0], rfl, by simp [IsDigit], by decide⟩
      exact .decimal (.inl rfl) (.bare hzero)
  | decimal hzero hrun hspaced =>
      rw [hspaced.withoutUnderscores_eq (hrun.underscore_not_mem (by decide))]
      exact .decimal (.inr hzero) (.bare hrun)
  | octal hrun hspaced =>
      have hcs := hrun.underscore_not_mem (by decide)
      rw [hspaced.withoutUnderscores_eq (List.not_mem_cons_of_ne_of_not_mem (by decide) hcs)]
      exact .octal (.bare hrun)
  | marked hmark hrun hspaced =>
      obtain ⟨hradix, -, -, -, hmark'⟩ := baseMark_of_mem hmark
      have hcs := hrun.underscore_not_mem hradix
      rw [withoutUnderscores_cons (by decide),
        hspaced.withoutUnderscores_eq (List.not_mem_cons_of_ne_of_not_mem hmark'.symm hcs)]
      exact .marked hmark (.bare hrun)

theorem IntegerLiteral.head?_ne (h : IntegerLiteral text n) : text.head? ≠ some '-' := by
  cases h with
  | zero => decide
  | decimal hzero hrun hspaced =>
      rw [hspaced.head?_eq]
      exact fun hc => (hrun.sign_not_mem (by decide)).2 (List.mem_of_mem_head? hc)
  | octal hrun hspaced =>
      rw [hspaced.head?_eq]
      simp
  | marked hmark hrun hspaced => simp

theorem IntegerLiteral.numberIn?_eq (h : IntegerLiteral text n) :
    numberIn? text = if n ≤ 2 ^ 63 - 1 then some (n : Int) else none := by
  have hsigned := h.based.imp fun _ _ _ => BareDigits.signedDigits
  simp only [numberIn?_of_based hsigned, fitsWord_natCast_iff]

/-- An integer literal is read as its value if that fits a signed word, and is refused otherwise, with
and without a minus sign in front. -/
theorem parseInt_of_integerLiteral (h : IntegerLiteral raw.toList n) :
    parseInt raw = (if n ≤ 2 ^ 63 - 1 then .ok (n : Int) else .error (.invalidInt raw)) ∧
    parseInt ("-" ++ raw) =
      if n ≤ 2 ^ 63 - 1 then .ok (-(n : Int)) else .error (.invalidInt ("-" ++ raw)) := by
  have hminus : ("-" ++ raw).toList = '-' :: raw.toList := by simp
  rw [parseInt_of_head_ne h.head?_ne, parseInt_of_minus hminus, h.numberIn?_eq]
  by_cases hle : n ≤ 2 ^ 63 - 1
  · have hlt : -(n : Int) < wordLimit := by
      unfold wordLimit
      omega
    simp only [if_pos hle, if_pos hlt, and_self]
  · simp only [if_neg hle, and_self]

theorem spaced_octal_and_large_hex :
    parseInt "0_17" = .ok 15 ∧ parseInt "-0_17" = .ok (-15) ∧
      parseInt "0X8000_0000_0000_0000" = .error (.invalidInt "0X8000_0000_0000_0000") := by
  have hrun : DigitRun 8 ['1', '7'] 15 := ⟨by decide, [1, 7], rfl, by simp [IsDigit], by decide⟩
  have hoctal : IntegerLiteral "0_17".toList 15 := .octal hrun (.apart (.next .one))
  have hlarge : IntegerLiteral "0X8000_0000_0000_0000".toList (2 ^ 63) := by
    have hrun : DigitRun 16 ('8' :: List.replicate 15 '0') (2 ^ 63) :=
      ⟨by decide, 8 :: List.replicate 15 0, rfl, by simp [IsDigit, List.replicate], by decide⟩
    exact .marked (by decide) hrun <| .next <| .next <| .next <| .next <| .apart <|
      .next <| .next <| .next <| .apart <| .next <| .next <| .next <| .apart <|
      .next <| .next <| .next .one
  have hread := parseInt_of_integerLiteral hoctal
  exact ⟨hread.1, hread.2, (parseInt_of_integerLiteral hlarge).1⟩

theorem IntegerText.sign_not_mem (h : IntegerText cs) : '+' ∉ cs ∧ '-' ∉ cs.tail := by
  cases h with
  | bare h =>
      obtain ⟨hplus, hminus⟩ := h.sign_not_mem
      exact ⟨hplus, mt List.mem_of_mem_tail hminus⟩
  | negative h => simpa using h.sign_not_mem

theorem mem_of_mem_withoutUnderscores (h : c ∈ withoutUnderscores cs) : c ∈ cs :=
  (List.mem_filter.1 h).1

theorem ReadAs.integerText (h : ReadAs cs v) (hplus : '+' ∉ cs) (hminus : '-' ∉ cs.tail) :
    IntegerText (withoutUnderscores cs) ∧ (v < 0 → cs.head? = some '-') := by
  cases h with
  | plain hhead hbased _ =>
      have hminus : '-' ∉ cs := by
        cases cs with
        | nil => exact List.not_mem_nil
        | cons c cs =>
            have hc : '-' ≠ c := fun hc => hhead (by rw [hc]; rfl)
            exact List.not_mem_cons_of_ne_of_not_mem hc hminus
      have hbare := hbased.bareDigits (mt mem_of_mem_withoutUnderscores hplus)
        (mt mem_of_mem_withoutUnderscores hminus)
      have hnonneg := hbare.nonneg
      exact ⟨.bare hbare, fun hneg => by omega⟩
  | turned hbased _ _ =>
      have hbare := hbased.bareDigits
        (mt mem_of_mem_withoutUnderscores (List.not_mem_of_not_mem_cons hplus))
        (mt mem_of_mem_withoutUnderscores hminus)
      rw [withoutUnderscores_cons (by decide)]
      exact ⟨.negative hbare, fun _ => rfl⟩

/-- What is read are digits that may have a sign of their own after the base prefix; without that sign,
the integers of the language. -/
theorem parseInt_accepts_signedDigits (raw : String) (v : Int) :
    (parseInt raw = .ok v ↔ ReadAs raw.toList v) ∧
      (parseInt raw = .ok v → '+' ∉ raw.toList → '-' ∉ raw.toList.tail →
        IntegerText (withoutUnderscores raw.toList) ∧ (v < 0 → raw.toList.head? = some '-')) ∧
      (parseInt raw = .error (.overflowsNegated raw) ↔
        ∃ cs, raw.toList = '-' :: cs ∧ Based SignedDigits (withoutUnderscores cs) (-wordLimit)) := by
  refine ⟨parseInt_eq_ok_iff, fun h hplus hminus => ?_, parseInt_overflows_iff⟩
  exact (parseInt_eq_ok_iff.1 h).integerText hplus hminus

theorem minus_hex_is_integerText :
    parseInt "-0x_1f" = .ok (-31) ∧ IntegerText (withoutUnderscores "-0x_1f".toList) := by
  have hrun : DigitRun 16 ['1', 'f'] 31 := ⟨by decide, [1, 15], rfl, by simp [IsDigit], by decide⟩
  have hread : ReadAs "-0x_1f".toList (-31) :=
    .turned (.marked (by decide) (.bare hrun)) (by decide) (by decide)
  obtain ⟨hread_iff, hinteger, -⟩ := parseInt_accepts_signedDigits "-0x_1f" (-31)
  have hvalue := hread_iff.2 hread
  exact ⟨hvalue, (hinteger hvalue (by decide) (by decide)).1⟩

theorem minus_after_base_accepted :
    parseInt "0x-1" = .ok (-1) ∧ ¬ IntegerText (withoutUnderscores "0x-1".toList) ∧
      "0x-1".toList.head? ≠ some '-' := by
  refine ⟨by rfl, fun h => ?_, by decide⟩
  exact absurd (show '-' ∈ (withoutUnderscores "0x-1".toList).tail by decide) h.sign_not_mem.2

end Reading

end ProviderManual.Source
