import ProviderManual.Proofs.Source.Literals

/-! The language of the rune literals. -/

namespace ProviderManual.Source

/-- The character that an item of a rune literal stands for: one given as a byte is a code point. -/
inductive Item.StandsFor : Item → Char → Prop where
  | char {c : Char} : StandsFor (.char c) c
  | byte {c : Char} : StandsFor (.byte c.toNat) c

inductive RuneLiteral : List Char → Char → Prop where
  | quoted {text : List Char} {i : Item} {c : Char} : Written '\'' text i → i.StandsFor c →
      RuneLiteral ('\'' :: text ++ ['\'']) c

def quotedLineBreak : List Char :=
  ['\'', '\n', '\'']

section Runes

variable {quote c : Char} {cs text inner : List Char} {i : Item} {raw v : String}

theorem Item.rune?_eq_some_iff : i.rune? = some c ↔ i.StandsFor c := by
  constructor
  · intro h
    cases i with
    | char d =>
        cases h
        exact .char
    | byte n =>
        obtain rfl := scalar?_eq_some_iff.1 h
        exact .byte
  · intro h
    cases h with
    | char => rfl
    | byte => exact scalar?_eq_some_iff.2 rfl

theorem items?_eq_nil_iff : items? quote cs = some [] ↔ cs = [] := by
  cases cs with
  | nil => simp [items?]
  | cons c cs => simp [items?_cons, Option.bind_eq_some_iff]

theorem items?_eq_singleton_iff : items? quote cs = some [i] ↔ item? quote cs = some (i, []) := by
  cases cs with
  | nil => simp [items?, item?]
  | cons c cs =>
      rw [items?_cons, Option.bind_eq_some_iff]
      constructor
      · rintro ⟨⟨j, rest⟩, hitem, h⟩
        obtain ⟨js, hjs, h⟩ := Option.map_eq_some_iff.1 h
        obtain ⟨rfl, rfl⟩ := List.cons.inj h
        rw [hitem, items?_eq_nil_iff.1 hjs]
      · intro h
        exact ⟨(i, []), h, by simp [items?]⟩

theorem rune?_eq_some_iff :
    rune? inner = some v ↔
      ∃ i c, (Written '\'' inner i ∨ inner = ['\n'] ∧ i = .char '\n') ∧ i.StandsFor c ∧
        v = String.ofList [c] := by
  have hitem : ∀ i, items? '\'' inner = some [i] ↔
      (Written '\'' inner i ∨ inner = ['\n'] ∧ i = .char '\n') := by
    intro i
    rw [items?_eq_singleton_iff, item?_eq_some_iff (.inr rfl)]
    simp
  constructor
  · intro h
    unfold rune? at h
    split at h
    · next i hi =>
        obtain ⟨c, hc, rfl⟩ := Option.map_eq_some_iff.1 h
        exact ⟨i, c, (hitem i).1 hi, Item.rune?_eq_some_iff.1 hc, rfl⟩
    · cases h
  · rintro ⟨i, c, hi, hc, rfl⟩
    rw [rune?, (hitem i).2 hi]
    exact Option.map_eq_some_iff.2 ⟨c, Item.rune?_eq_some_iff.2 hc, rfl⟩

theorem inside?_quote_eq_some_iff :
    inside? '\'' inner = some v ↔
      ∃ c, v = String.ofList [c] ∧
        (RuneLiteral ('\'' :: inner ++ ['\'']) c ∨
          '\'' :: inner ++ ['\''] = quotedLineBreak ∧ c = '\n') := by
  have hinside : inside? '\'' inner = rune? inner := rfl
  rw [hinside, rune?_eq_some_iff]
  constructor
  · rintro ⟨i, c, hi | ⟨rfl, rfl⟩, hc, rfl⟩
    · exact ⟨c, rfl, .inl (.quoted hi hc)⟩
    · cases hc
      exact ⟨'\n', rfl, .inr ⟨rfl, rfl⟩⟩
  · rintro ⟨c, rfl, h | ⟨h, rfl⟩⟩
    · generalize hcs : '\'' :: inner ++ ['\''] = cs at h
      cases h with
      | quoted hi hc =>
          obtain rfl := List.append_cancel_right (List.cons.inj hcs).2
          exact ⟨_, c, .inl hi, hc, rfl⟩
    · have hinner : inner = ['\n'] := List.append_cancel_right (List.cons.inj h).2
      exact ⟨_, '\n', .inr ⟨hinner, rfl⟩, .char, rfl⟩

theorem utf8Size_eq_one_of_head (hrune : raw.toList.head? = some '\'') :
    ∀ c, raw.toList = [c] → c.utf8Size = 1 := by
  intro c hc
  rw [hc] at hrune
  obtain rfl : c = '\'' := Option.some.inj hrune
  rfl

/-- A text that starts with a single quote is read as the character of a rune literal, or as a line
break if that is all between two quotes; any other is invalid. -/
theorem unquote_accepts_runeLiterals_and_lineBreak (hrune : raw.toList.head? = some '\'') :
    (∀ v, unquote raw = .ok v ↔ ∃ c, v = String.ofList [c] ∧
      (RuneLiteral raw.toList c ∨ raw.toList = quotedLineBreak ∧ c = '\n')) ∧
    ((∀ c, ¬ RuneLiteral raw.toList c) → raw.toList ≠ quotedLineBreak →
      unquote raw = .error (.invalidString raw)) := by
  have hwide := utf8Size_eq_one_of_head hrune
  have hok : ∀ v, unquote raw = .ok v ↔ ∃ c, v = String.ofList [c] ∧
      (RuneLiteral raw.toList c ∨ raw.toList = quotedLineBreak ∧ c = '\n') := by
    intro v
    rw [unquote_eq_ok_iff hwide]
    constructor
    · rintro ⟨quote, inner, hcs, hv⟩
      rw [hcs] at hrune ⊢
      obtain rfl : quote = '\'' := Option.some.inj hrune
      exact inside?_quote_eq_some_iff.1 hv
    · rintro ⟨c, hv, hc⟩
      have hquotes : ∃ inner, raw.toList = '\'' :: inner ++ ['\''] := by
        rcases hc with hc | ⟨hc, -⟩
        · generalize raw.toList = cs at hc
          cases hc with
          | quoted => exact ⟨_, rfl⟩
        · exact ⟨['\n'], hc⟩
      obtain ⟨inner, hcs⟩ := hquotes
      rw [hcs] at hc
      exact ⟨'\'', inner, hcs, inside?_quote_eq_some_iff.2 ⟨c, hv, hc⟩⟩
  refine ⟨hok, fun hnone hline => ?_⟩
  cases hu : unquote raw with
  | ok v =>
      obtain ⟨c, -, hc | ⟨hc, -⟩⟩ := (hok v).1 hu
      · exact absurd hc (hnone c)
      · exact absurd hc hline
  | error e => rw [unquote_eq_error_inj hwide hu]

theorem e_acute_by_code_point :
    "'\\xe9'".toList.head? = some '\'' ∧ unquote "'\\xe9'" = .ok "é" ∧
      unquote "'ab'" = .error (.invalidString "'ab'") := by
  have he9 : Written '\'' ['\\', 'x', 'e', '9'] (.byte 'é'.toNat) :=
    .escape (.hex ⟨[14, 9], rfl, by simp [IsDigit], by decide⟩)
  have hab : ∀ c, ¬ RuneLiteral "'ab'".toList c := by
    intro c h
    generalize hcs : "'ab'".toList = cs at h
    cases h with
    | @quoted text i c hi hc =>
        obtain rfl : ['a', 'b'] = text := List.append_cancel_right (List.cons.inj hcs).2
        cases hi
  refine ⟨rfl, ?_, ?_⟩
  · exact ((unquote_accepts_runeLiterals_and_lineBreak rfl).1 _).2
      ⟨'é', by decide, .inl (.quoted he9 .byte)⟩
  · exact (unquote_accepts_runeLiterals_and_lineBreak rfl).2 hab (by decide)

theorem quoted_lineBreak_accepted :
    unquote "'\n'" = .ok "\n" ∧ (∀ c, ¬ RuneLiteral "'\n'".toList c) ∧
      unquote "\"\n\"" = .error (.invalidString "\"\n\"") := by
  refine ⟨?_, ?_, ?_⟩
  · have hinside : inside? '\'' ['\n'] = some "\n" :=
      inside?_quote_eq_some_iff.2 ⟨'\n', rfl, .inr ⟨rfl, rfl⟩⟩
    exact (unquote_eq_ok_iff (by simp)).2 ⟨'\'', ['\n'], rfl, hinside⟩
  · intro c h
    generalize hcs : "'\n'".toList = cs at h
    cases h with
    | @quoted text i c hi hc =>
        obtain rfl : ['\n'] = text := List.append_cancel_right (List.cons.inj hcs).2
        cases hi with
        | plain hquote hslash hline => exact hline rfl
  · rfl

end Runes

end ProviderManual.Source
