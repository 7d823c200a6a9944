import Mathlib.Data.List.Forall2
import Mathlib.Data.Nat.Digits.Defs
import Mathlib.Tactic.IntervalCases
import ProviderManual.Source.Literal

/-! The language of the quoted literals, as rules over characters. -/

namespace ProviderManual.Source

section Numerals

variable {radix count value n d : Nat} {c : Char} {cs rest : List Char}

def IsDigit (radix d : Nat) (c : Char) : Prop :=
  d < radix ∧ (c = Nat.digitChar d ∨ c = (Nat.digitChar d).toUpper)

def Numeral (radix count : Nat) (cs : List Char) (n : Nat) : Prop :=
  ∃ ds, ds.length = count ∧ List.Forall₂ (IsDigit radix) ds cs ∧ n = Nat.ofDigits radix ds.reverse

theorem digit?_eq_some_iff (hradix : radix ≤ 16) : digit? radix c = some d ↔ IsDigit radix d c := by
  constructor
  · intro h
    obtain ⟨hvalue, hlt⟩ := Option.filter_eq_some_iff.1 h
    have hd : d < radix := by simpa using hlt
    have hc : Char.ofNat c.toNat = c := Char.ofNat_toNat c
    -- the range that holds the character fixes its code point
    have hcode : c.toNat = 48 + d ∧ d < 10 ∨ (c.toNat = 87 + d ∨ c.toNat = 55 + d) ∧ 10 ≤ d := by
      split_ifs at hvalue with hnum hlower hupper
      · change 48 ≤ c.toNat ∧ c.toNat ≤ 57 at hnum
        have : c.toNat - 48 = d := by simpa using hvalue
        omega
      · change 97 ≤ c.toNat ∧ c.toNat ≤ 122 at hlower
        have : c.toNat - 97 + 10 = d := by simpa using hvalue
        omega
      · change 65 ≤ c.toNat ∧ c.toNat ≤ 90 at hupper
        have : c.toNat - 65 + 10 = d := by simpa using hvalue
        omega
    have hd16 : d < 16 := by omega
    refine ⟨hd, ?_⟩
    rcases hcode with ⟨hcode, hlow⟩ | ⟨hcode | hcode, hhigh⟩
    · left; rw [← hc, hcode]; interval_cases d <;> rfl
    · left; rw [← hc, hcode]; interval_cases d <;> rfl
    · right; rw [← hc, hcode]; interval_cases d <;> rfl
  · rintro ⟨hd, hc⟩
    have hd16 : d < 16 := by omega
    interval_cases d <;> rcases hc with rfl | rfl <;> simp [digit?, hd] <;> decide

theorem digits_eq_some_iff (hradix : radix ≤ 16) :
    digits radix count value cs = some (n, rest) ↔
      ∃ ds text, cs = text ++ rest ∧ ds.length = count ∧ List.Forall₂ (IsDigit radix) ds text ∧
        n = ds.foldl (fun v d => v * radix + d) value := by
  -- on the number of digits, for any value read before them
  induction count generalizing value cs with
  | zero =>
      simp only [digits, Option.some.injEq, Prod.mk.injEq]
      constructor
      · rintro ⟨rfl, rfl⟩
        exact ⟨[], [], rfl, rfl, .nil, rfl⟩
      · rintro ⟨ds, text, rfl, hlen, hds, rfl⟩
        obtain rfl := List.length_eq_zero_iff.1 hlen
        cases hds
        exact ⟨rfl, rfl⟩
  | succ count ih =>
      constructor
      · intro h
        cases cs with
        | nil => simp [digits] at h
        | cons c cs =>
            simp only [digits] at h
            split at h
            next d hd =>
              obtain ⟨ds, text, rfl, hlen, hds, hn⟩ := ih.1 h
              exact ⟨d :: ds, c :: text, rfl, by simp [hlen],
                .cons ((digit?_eq_some_iff hradix).1 hd) hds, hn⟩
            · cases h
      · rintro ⟨ds, text, rfl, hlen, hds, hn⟩
        cases hds with
        | nil => simp at hlen
        | @cons d c ds text hd hds =>
            have hd : digit? radix c = some d := (digit?_eq_some_iff hradix).2 hd
            simp only [List.cons_append, digits, hd]
            exact ih.2 ⟨ds, text, rfl, by simpa using hlen, hds, hn⟩

theorem digits_zero_eq_some_iff (hradix : radix ≤ 16) :
    digits radix count 0 cs = some (n, rest) ↔
      ∃ text, cs = text ++ rest ∧ Numeral radix count text n := by
  have hvalue : ∀ ds : List Nat,
      ds.foldl (fun v d => v * radix + d) 0 = Nat.ofDigits radix ds.reverse := by
    intro ds
    simp [Nat.ofDigits_eq_foldr, List.foldr_reverse, Nat.add_comm, Nat.mul_comm]
  rw [digits_eq_some_iff hradix]
  constructor
  · rintro ⟨ds, text, hcs, hlen, hds, hn⟩
    exact ⟨text, hcs, ds, hlen, hds, hn.trans (hvalue ds)⟩
  · rintro ⟨text, hcs, ds, hlen, hds, hn⟩
    exact ⟨ds, text, hcs, hlen, hds, hn.trans (hvalue ds).symm⟩

theorem IsDigit.octal (h : IsDigit 8 d c) : '0' ≤ c ∧ c ≤ '7' := by
  obtain ⟨hd, hc⟩ := h
  interval_cases d <;> rcases hc with rfl | rfl <;> decide

theorem Numeral.eq_cons (h : Numeral radix (count + 1) cs n) :
    ∃ d c cs', cs = c :: cs' ∧ IsDigit radix d c := by
  obtain ⟨ds, hlen, hds, -⟩ := h
  cases hds with
  | nil => cases hlen
  | cons hd _ => exact ⟨_, _, _, rfl, hd⟩

theorem Numeral.exists_isDigit (h : Numeral radix count cs n) (hc : c ∈ cs) :
    ∃ d, IsDigit radix d c := by
  obtain ⟨ds, -, hds, -⟩ := h
  induction hds with
  | nil => cases hc
  | @cons d _ _ _ hd _ ih =>
      rcases List.mem_cons.1 hc with rfl | hc
      · exact ⟨d, hd⟩
      · exact ih hc

theorem Numeral.newline_not_mem (hradix : radix ≤ 16) (h : Numeral radix count cs n) :
    '\n' ∉ cs := by
  intro hmem
  obtain ⟨d, hd⟩ := h.exists_isDigit hmem
  have hline : digit? radix '\n' = some d := (digit?_eq_some_iff hradix).2 hd
  simp [digit?] at hline

theorem scalar?_eq_some_iff : scalar? n = some c ↔ n = c.toNat := by
  unfold scalar?
  constructor
  · intro h
    split at h
    next hn =>
      cases h
      have : n < 0x110000 := by cases hn <;> omega
      have : n < UInt32.size := Nat.lt_trans this (by decide)
      exact (UInt32.toNat_ofNat_of_lt' this).symm
    · cases h
  · rintro rfl
    have hc : c.toNat.isValidChar := c.valid
    rw [dif_pos hc]
    exact congrArg some (Char.ext UInt32.ofNat_toNat)

end Numerals

def letterEscapes : List (Char × Char) :=
  [('a', '\x07'), ('b', '\x08'), ('f', '\x0c'), ('n', '\n'), ('r', '\r'), ('t', '\t'),
    ('v', '\x0b'), ('\\', '\\')]

inductive Escape (quote : Char) : List Char → Item → Prop where
  | letter {e c : Char} : (e, c) ∈ letterEscapes → Escape quote [e] (.char c)
  | quote : Escape quote [quote] (.char quote)
  | hex {cs : List Char} {n : Nat} : Numeral 16 2 cs n → Escape quote ('x' :: cs) (.byte n)
  | octal {cs : List Char} {n : Nat} : Numeral 8 3 cs n → n ≤ 255 → Escape quote cs (.byte n)
  | short {cs : List Char} {c : Char} : Numeral 16 4 cs c.toNat → Escape quote ('u' :: cs) (.char c)
  | long {cs : List Char} {c : Char} : Numeral 16 8 cs c.toNat → Escape quote ('U' :: cs) (.char c)

inductive Written (quote : Char) : List Char → Item → Prop where
  | plain {c : Char} : c ≠ quote → c ≠ '\\' → c ≠ '\n' → Written quote [c] (.char c)
  | escape {cs : List Char} {i : Item} : Escape quote cs i → Written quote ('\\' :: cs) i

inductive Spelled (quote : Char) : List Char → List Item → Prop where
  | nil : Spelled quote [] []
  | cons {text cs : List Char} {i : Item} {is : List Item} :
      Written quote text i → Spelled quote cs is → Spelled quote (text ++ cs) (i :: is)

section Items

variable {quote c e : Char} {n : Nat} {text cs rest : List Char} {i : Item} {is : List Item}

theorem simpleEscape?_eq_some_iff : simpleEscape? e = some c ↔ (e, c) ∈ letterEscapes := by
  constructor
  · intro h
    unfold simpleEscape? at h
    split at h <;> cases h <;> simp [letterEscapes]
  · intro h
    have hall : ∀ p ∈ letterEscapes, simpleEscape? p.1 = some p.2 := by decide
    exact hall (e, c) h

theorem escape?_octal (h : '0' ≤ e ∧ e ≤ '7') :
    escape? quote (e :: cs) =
      (digits 8 3 0 (e :: cs)).bind fun (n, rest) =>
        if n ≤ 255 then some (.byte n, rest) else none := by
  have hsimple : simpleEscape? e = none := by
    unfold simpleEscape?
    split <;> first | rfl | exact absurd h (by decide)
  have hquote : ¬(e = '\'' ∨ e = '"') := by rintro (rfl | rfl) <;> exact absurd h (by decide)
  have hx : e ≠ 'x' := by rintro rfl; exact absurd h (by decide)
  have hu : e ≠ 'u' := by rintro rfl; exact absurd h (by decide)
  have hU : e ≠ 'U' := by rintro rfl; exact absurd h (by decide)
  simp only [escape?, hsimple, hquote, hx, hu, hU, h, and_self, if_true, if_false]

theorem digits_scalar_eq_some_iff {count : Nat} :
    ((digits 16 count 0 cs).bind fun (n, rest) => (scalar? n).map fun c => (Item.char c, rest)) =
        some (i, rest) ↔
      ∃ text c, cs = text ++ rest ∧ Numeral 16 count text c.toNat ∧ i = .char c := by
  constructor
  · intro h
    obtain ⟨⟨n, r⟩, hn, h⟩ := Option.bind_eq_some_iff.1 h
    obtain ⟨c, hc, h⟩ := Option.map_eq_some_iff.1 h
    obtain ⟨rfl, rfl⟩ := Prod.mk.inj h
    obtain rfl := scalar?_eq_some_iff.1 hc
    obtain ⟨text, rfl, htext⟩ := (digits_zero_eq_some_iff (by decide)).1 hn
    exact ⟨text, c, rfl, htext, rfl⟩
  · rintro ⟨text, c, rfl, htext, rfl⟩
    have hn : digits 16 count 0 (text ++ rest) = some (c.toNat, rest) :=
      (digits_zero_eq_some_iff (by decide)).2 ⟨text, rfl, htext⟩
    simp only [hn, Option.bind_some, scalar?_eq_some_iff.2 rfl, Option.map_some]

theorem escape?_eq_some_iff (hquote : quote = '"' ∨ quote = '\'') :
    escape? quote cs = some (i, rest) ↔ ∃ text, cs = text ++ rest ∧ Escape quote text i := by
  constructor
  · intro h
    cases cs with
    | nil => simp [escape?] at h
    | cons e cs =>
        simp only [escape?] at h
        split at h
        next c hc =>
          simp only [Option.some.injEq, Prod.mk.injEq] at h
          obtain ⟨rfl, rfl⟩ := h
          exact ⟨[e], rfl, .letter (simpleEscape?_eq_some_iff.1 hc)⟩
        split_ifs at h with hq he hx hu hU hoctal
        · simp only [Option.some.injEq, Prod.mk.injEq] at h
          obtain ⟨rfl, rfl⟩ := h
          exact ⟨[e], rfl, he ▸ .quote⟩
        · obtain ⟨⟨n, r⟩, hn, h⟩ := Option.map_eq_some_iff.1 h
          simp only [Prod.mk.injEq] at h
          obtain ⟨rfl, rfl⟩ := h
          obtain ⟨text, rfl, htext⟩ := (digits_zero_eq_some_iff (by decide)).1 hn
          exact ⟨e :: text, rfl, hx ▸ .hex htext⟩
        · obtain ⟨text, c, rfl, htext, rfl⟩ := digits_scalar_eq_some_iff.1 h
          exact ⟨e :: text, rfl, hu ▸ .short htext⟩
        · obtain ⟨text, c, rfl, htext, rfl⟩ := digits_scalar_eq_some_iff.1 h
          exact ⟨e :: text, rfl, hU ▸ .long htext⟩
        · obtain ⟨⟨n, r⟩, hn, h⟩ := Option.bind_eq_some_iff.1 h
          split_ifs at h with hle
          obtain ⟨rfl, rfl⟩ := Prod.mk.inj (Option.some.inj h)
          obtain ⟨text, htext, hnum⟩ := (digits_zero_eq_some_iff (by decide)).1 hn
          exact ⟨text, htext, .octal hnum hle⟩
  · rintro ⟨text, rfl, h⟩
    cases h with
    | letter h =>
        simp only [List.cons_append, List.nil_append, escape?, simpleEscape?_eq_some_iff.2 h]
    | quote => rcases hquote with rfl | rfl <;> rfl
    | @hex cs n h =>
        have hn : digits 16 2 0 (cs ++ rest) = some (n, rest) :=
          (digits_zero_eq_some_iff (by decide)).2 ⟨cs, rfl, h⟩
        simp [escape?, simpleEscape?, hn]
    | @octal _ n h hle =>
        have hn : digits 8 3 0 (text ++ rest) = some (n, rest) :=
          (digits_zero_eq_some_iff (by decide)).2 ⟨text, rfl, h⟩
        -- the first of the three digits selects the branch, and is read again as a digit
        obtain ⟨d, e, cs, rfl, he⟩ := h.eq_cons
        rw [List.cons_append] at hn ⊢
        simp only [escape?_octal he.octal, hn, Option.bind_some, if_pos hle]
    | @short cs c h =>
        have hc := digits_scalar_eq_some_iff.2 ⟨cs, c, Eq.refl (cs ++ rest), h, rfl⟩
        simpa [escape?, simpleEscape?] using hc
    | @long cs c h =>
        have hc := digits_scalar_eq_some_iff.2 ⟨cs, c, Eq.refl (cs ++ rest), h, rfl⟩
        simpa [escape?, simpleEscape?] using hc

theorem item?_eq_some_iff (hquote : quote = '"' ∨ quote = '\'') :
    item? quote cs = some (i, rest) ↔
      ∃ text, cs = text ++ rest ∧ (Written quote text i ∨ text = ['\n'] ∧ i = .char '\n') := by
  constructor
  · intro h
    cases cs with
    | nil => simp [item?] at h
    | cons c cs =>
        simp only [item?] at h
        split_ifs at h with hq hslash
        · obtain ⟨text, rfl, htext⟩ := (escape?_eq_some_iff hquote).1 h
          exact ⟨c :: text, rfl, .inl (hslash ▸ .escape htext)⟩
        · obtain ⟨rfl, rfl⟩ := Prod.mk.inj (Option.some.inj h)
          refine ⟨[c], rfl, ?_⟩
          -- a line break is taken like any character; that strings have none is checked before
          by_cases hline : c = '\n'
          · exact .inr ⟨by rw [hline], by rw [hline]⟩
          · exact .inl (.plain hq hslash hline)
  · rintro ⟨text, rfl, (⟨hq, hslash, -⟩ | h) | ⟨rfl, rfl⟩⟩
    · simp [item?, hq, hslash]
    · have hq : '\\' ≠ quote := by rcases hquote with rfl | rfl <;> decide
      have he := (escape?_eq_some_iff hquote).2 ⟨_, Eq.refl (_ ++ rest), h⟩
      simpa [item?, hq] using he
    · have hq : '\n' ≠ quote := by rcases hquote with rfl | rfl <;> decide
      simp [item?, hq]

theorem Escape.newline_not_mem (hquote : quote ≠ '\n') (h : Escape quote cs i) : '\n' ∉ cs := by
  cases h with
  | letter h =>
      intro hmem
      obtain rfl := List.mem_singleton.1 hmem
      simp [letterEscapes] at h
  | quote => simpa using Ne.symm hquote
  | hex h => simpa using h.newline_not_mem (by decide)
  | octal h => exact h.newline_not_mem (by decide)
  | short h => simpa using h.newline_not_mem (by decide)
  | long h => simpa using h.newline_not_mem (by decide)

theorem Spelled.newline_not_mem (hquote : quote ≠ '\n') (h : Spelled quote cs is) : '\n' ∉ cs := by
  induction h with
  | nil => exact List.not_mem_nil
  | @cons text cs i is h hs ih =>
      have htext : '\n' ∉ text := by
        cases h with
        | plain hq hslash hline => simpa using Ne.symm hline
        | escape h => simpa using h.newline_not_mem hquote
      simp [htext, ih]

theorem items?_cons :
    items? quote (c :: cs) =
      (item? quote (c :: cs)).bind fun (i, rest) => (items? quote rest).map (i :: ·) := by
  rw [items?]
  split <;> simp [*]

theorem items?_eq_some_iff (hquote : quote = '"' ∨ quote = '\'') (hline : '\n' ∉ cs) :
    items? quote cs = some is ↔ Spelled quote cs is := by
  constructor
  · intro h
    induction is generalizing cs with
    | nil =>
        cases cs with
        | nil => exact .nil
        | cons c cs => simp [items?_cons, Option.bind_eq_some_iff] at h
    | cons i is ih =>
        cases cs with
        | nil => simp [items?] at h
        | cons c cs =>
            rw [items?_cons] at h
            obtain ⟨⟨j, rest⟩, hitem, h⟩ := Option.bind_eq_some_iff.1 h
            obtain ⟨js, his, h⟩ := Option.map_eq_some_iff.1 h
            obtain ⟨rfl, rfl⟩ := List.cons.inj h
            obtain ⟨text, hcs, htext⟩ := (item?_eq_some_iff hquote).1 hitem
            rw [hcs, List.mem_append, not_or] at hline
            rw [hcs]
            rcases htext with htext | ⟨rfl, -⟩
            · exact .cons htext (ih hline.2 his)
            · exact absurd (List.mem_singleton_self _) hline.1
  · intro h
    induction h with
    | nil => rw [items?]
    | @cons text cs i is h hs ih =>
        rw [List.mem_append, not_or] at hline
        have hitem : item? quote (text ++ cs) = some (i, cs) :=
          (item?_eq_some_iff hquote).2 ⟨text, rfl, .inl h⟩
        cases hcs : text ++ cs with
        | nil => simp [hcs, item?] at hitem
        | cons c cs' =>
            rw [items?_cons, ← hcs, hitem]
            simp only [Option.bind_some, ih hline.2, Option.map_some]

end Items

theorem fromUTF8?_eq_some_iff {bytes : List UInt8} {v : String} :
    String.fromUTF8? ⟨bytes.toArray⟩ = some v ↔ v.toUTF8.data.toList = bytes := by
  unfold String.fromUTF8?
  constructor
  · intro h
    split_ifs at h
    cases h
    rfl
  · rintro rfl
    exact dif_pos v.isValidUTF8

theorem interpreted?_eq_some_iff {inner : List Char} {v : String} :
    interpreted? inner = some v ↔
      ∃ is, Spelled '"' inner is ∧ v.toUTF8.data.toList = is.flatMap Item.bytes := by
  unfold interpreted?
  split_ifs with hline
  · simp only [false_iff, not_exists, not_and]
    exact fun is his _ => his.newline_not_mem (by decide) hline
  · simp only [Option.bind_eq_some_iff, items?_eq_some_iff (.inl rfl) hline, fromUTF8?_eq_some_iff]

inductive StringLiteral : List Char → String → Prop where
  | raw {inner : List Char} (h : '\x60' ∉ inner) :
      StringLiteral ('\x60' :: inner ++ ['\x60']) (String.ofList (inner.filter (· ≠ '\r')))
  | interpreted {inner : List Char} {is : List Item} {v : String} (h : Spelled '"' inner is)
      (hv : v.toUTF8.data.toList = is.flatMap Item.bytes) : StringLiteral ('"' :: inner ++ ['"']) v

theorem StringLiteral.exists_quote {cs : List Char} {v : String} (h : StringLiteral cs v) :
    ∃ quote inner, quote ≠ '\'' ∧ cs = quote :: inner ++ [quote] := by
  cases h with
  | raw => exact ⟨_, _, by decide, rfl⟩
  | interpreted => exact ⟨_, _, by decide, rfl⟩

theorem inside?_eq_some_iff {quote : Char} {inner : List Char} {v : String} (hquote : quote ≠ '\'') :
    inside? quote inner = some v ↔ StringLiteral (quote :: inner ++ [quote]) v := by
  constructor
  · intro h
    unfold inside? at h
    split_ifs at h with hraw hstring
    · unfold raw? at h
      split_ifs at h with hmem
      cases h
      exact hraw ▸ .raw hmem
    · obtain ⟨is, his, hv⟩ := interpreted?_eq_some_iff.1 h
      exact hstring ▸ .interpreted his hv
  · intro h
    generalize hcs : quote :: inner ++ [quote] = cs at h
    cases h with
    | raw hmem =>
        obtain ⟨rfl, hinner⟩ := List.cons.inj hcs
        obtain rfl := List.append_cancel_right hinner
        simp [inside?, raw?, hmem]
    | interpreted his hv =>
        obtain ⟨rfl, hinner⟩ := List.cons.inj hcs
        obtain rfl := List.append_cancel_right hinner
        simpa [inside?] using interpreted?_eq_some_iff.2 ⟨_, his, hv⟩

section Unquote

variable {raw v : String}

theorem isLoneWideChar_eq_false (hwide : ∀ c, raw.toList = [c] → c.utf8Size = 1) :
    isLoneWideChar raw = false := by
  unfold isLoneWideChar
  split
  next c hc => simp [hwide c hc]
  · rfl

theorem unquote_eq_ok_iff (hwide : ∀ c, raw.toList = [c] → c.utf8Size = 1) :
    unquote raw = .ok v ↔
      ∃ quote inner, raw.toList = quote :: inner ++ [quote] ∧ inside? quote inner = some v := by
  rw [unquote, isLoneWideChar_eq_false hwide, if_neg Bool.false_ne_true]
  constructor
  · intro h
    split at h
    · cases h
    next quote rest hcs =>
      split_ifs at h with hlast
      obtain ⟨inner, rfl⟩ := List.getLast?_eq_some_iff.1 hlast
      rw [List.dropLast_concat] at h
      split at h
      next value hvalue =>
        cases h
        exact ⟨quote, inner, hcs, hvalue⟩
      · cases h
  · rintro ⟨quote, inner, hcs, hv⟩
    rw [hcs]
    simp [hv]

theorem unquote_eq_error_inj {e : LiteralError} (hwide : ∀ c, raw.toList = [c] → c.utf8Size = 1)
    (h : unquote raw = .error e) : e = .invalidString raw := by
  rw [unquote, isLoneWideChar_eq_false hwide, if_neg Bool.false_ne_true] at h
  split at h
  · cases h; rfl
  · split_ifs at h
    · split at h
      · cases h
      · cases h; rfl
    · cases h; rfl

theorem unquote_accepts_exactly_stringLiterals (hrune : raw.toList.head? ≠ some '\'')
    (hwide : ∀ c, raw.toList = [c] → c.utf8Size = 1) :
    (∀ v, unquote raw = .ok v ↔ StringLiteral raw.toList v) ∧
      ((∀ v, ¬StringLiteral raw.toList v) → unquote raw = .error (.invalidString raw)) := by
  have hok : ∀ v, unquote raw = .ok v ↔ StringLiteral raw.toList v := by
    intro v
    rw [unquote_eq_ok_iff hwide]
    constructor
    · rintro ⟨quote, inner, hcs, hv⟩
      have hquote : quote ≠ '\'' := by
        rintro rfl
        exact hrune (by rw [hcs]; rfl)
      rw [hcs]
      exact (inside?_eq_some_iff hquote).1 hv
    · intro h
      obtain ⟨quote, inner, hquote, hcs⟩ := h.exists_quote
      exact ⟨quote, inner, hcs, (inside?_eq_some_iff hquote).2 (hcs ▸ h)⟩
  refine ⟨hok, fun h => ?_⟩
  cases hu : unquote raw with
  | ok v => exact absurd ((hok v).1 hu) (h v)
  | error e => rw [unquote_eq_error_inj hwide hu]

theorem cafe_spelled_in_bytes :
    unquote "\"caf\\xc3\\xa9\"" = .ok "café" ∧ unquote "name" = .error (.invalidString "name") := by
  have plain : ∀ {c : Char}, c ≠ '"' → c ≠ '\\' → c ≠ '\n' → Written '"' [c] (.char c) := .plain
  have hc3 : Written '"' ['\\', 'x', 'c', '3'] (.byte 0xc3) :=
    .escape (.hex ⟨[12, 3], rfl, by simp [IsDigit], by decide⟩)
  have ha9 : Written '"' ['\\', 'x', 'a', '9'] (.byte 0xa9) :=
    .escape (.hex ⟨[10, 9], rfl, by simp [IsDigit], by decide⟩)
  have hinner : Spelled '"' ['c', 'a', 'f', '\\', 'x', 'c', '3', '\\', 'x', 'a', '9']
      [.char 'c', .char 'a', .char 'f', .byte 0xc3, .byte 0xa9] :=
    .cons (plain (by decide) (by decide) (by decide)) <|
      .cons (plain (by decide) (by decide) (by decide)) <|
        .cons (plain (by decide) (by decide) (by decide)) <| .cons hc3 (.cons ha9 .nil)
  have hcafe : StringLiteral "\"caf\\xc3\\xa9\"".toList "café" := .interpreted hinner (by decide)
  have hname : ∀ v, ¬StringLiteral "name".toList v := by
    intro v h
    obtain ⟨quote, inner, -, hcs⟩ := h.exists_quote
    change ['n', 'a', 'm', 'e'] = quote :: inner ++ [quote] at hcs
    obtain ⟨rfl, hinner⟩ := List.cons.inj hcs
    have hlast := congrArg List.getLast? hinner
    simp at hlast
  constructor
  · exact ((unquote_accepts_exactly_stringLiterals (by decide)
      (by intro c hc; simp at hc)).1 _).2 hcafe
  · exact (unquote_accepts_exactly_stringLiterals (by decide) (by intro c hc; simp at hc)).2 hname

end Unquote

end ProviderManual.Source
