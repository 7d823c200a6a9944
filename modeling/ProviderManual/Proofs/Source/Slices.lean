import Mathlib.Data.List.Induction
import ProviderManual.Proofs.Schema.Declarations
import ProviderManual.Proofs.Source.Literals

/-! Taking the quotes off a text by byte positions. -/

namespace ProviderManual.Source

/-- The positions are in order, within the text, and cut none of its characters. -/
abbrev Delimits (s : String) (start stop : String.Pos.Raw) : Prop :=
  start.IsValid s ∧ stop.IsValid s ∧ start ≤ stop

def between? (s : String) (start stop : String.Pos.Raw) : Option String :=
  if h : Delimits s start stop then
    some (s.slice (s.pos start h.1) (s.pos stop h.2.1) h.2.2).copy
  else none

def decoded (raw : String) (quote : Char) (inner : List Char) : Except LiteralError String :=
  match inside? quote inner with
  | some value => .ok value
  | none => .error (.invalidString raw)

/-- Reads what is left when the first character's width is taken off at both ends. -/
def unquoteBetween (raw : String) : Except LiteralError String :=
  match raw.toList with
  | [] => .error (.invalidString raw)
  | quote :: _ =>
      if raw.utf8ByteSize < 2 ∨ raw.toList.getLast? ≠ some quote then .error (.invalidString raw)
      else
        match between? raw ⟨quote.utf8Size⟩ ⟨raw.utf8ByteSize - quote.utf8Size⟩ with
        | none => .error (.splitsCharacter raw)
        | some inner => decoded raw quote inner.toList

structure StartsAndEnds (raw : String) (quote : Char) : Prop where
  starts : raw.toList.head? = some quote
  ends : raw.toList.getLast? = some quote
  size : 2 ≤ raw.utf8ByteSize

def IsLoneWide (raw : String) : Prop :=
  ∃ c, raw.toList = [c] ∧ 1 < c.utf8Size

def CutsCharacter {α : Type} (r : Except LiteralError α) : Prop :=
  ∃ text, r = .error (.splitsCharacter text)

section Slices

variable {s t raw : String} {start stop : String.Pos.Raw} {quote : Char} {inner : List Char}

theorem between?_eq_none_iff : between? s start stop = none ↔ ¬ Delimits s start stop := by
  unfold between?
  split <;> simp [*]

theorem between?_eq_some_iff :
    between? s start stop = some t ↔
      ∃ before after, s = before ++ t ++ after ∧ start = before.rawEndPos ∧
        stop = (before ++ t).rawEndPos := by
  unfold between?
  constructor
  · intro h
    split at h
    · next hbounds =>
        obtain ⟨before, after, hstart, hstop⟩ :=
          String.copy_slice_eq_iff_splits.1 ⟨hbounds.2.2, Option.some.inj h⟩
        exact ⟨before, after, hstop.eq_append, hstart.offset_eq_rawEndPos,
          hstop.offset_eq_rawEndPos⟩
    · cases h
  · rintro ⟨before, after, rfl, rfl, rfl⟩
    have hstart : before.rawEndPos.IsValid (before ++ t ++ after) :=
      String.Pos.Raw.isValid_iff_exists_append.2 ⟨before, t ++ after, String.append_assoc, rfl⟩
    have hstop : (before ++ t).rawEndPos.IsValid (before ++ t ++ after) :=
      String.Pos.Raw.isValid_iff_exists_append.2 ⟨before ++ t, after, rfl, rfl⟩
    have hle : before.rawEndPos ≤ (before ++ t).rawEndPos := by
      rw [String.Pos.Raw.le_iff]
      simp
    have hsplit : ((before ++ t ++ after).pos _ hstart).Splits before (t ++ after) :=
      ⟨String.append_assoc, rfl⟩
    have hsplit' : ((before ++ t ++ after).pos _ hstop).Splits (before ++ t) after := ⟨rfl, rfl⟩
    obtain ⟨_, hcopy⟩ := String.copy_slice_eq_iff_splits.2 ⟨before, after, hsplit, hsplit'⟩
    rw [dif_pos ⟨hstart, hstop, hle⟩]
    exact congrArg some hcopy

theorem eq_append_of_quoted (h : raw.toList = quote :: inner ++ [quote]) :
    raw = String.singleton quote ++ String.ofList inner ++ String.singleton quote := by
  apply String.toList_inj.1
  simpa using h

theorem utf8ByteSize_of_toList_singleton (h : raw.toList = [quote]) :
    raw.utf8ByteSize = quote.utf8Size := by
  have hraw : raw = String.singleton quote := String.toList_inj.1 (by simpa using h)
  rw [hraw, String.utf8ByteSize_singleton]

theorem between?_of_quoted (h : raw.toList = quote :: inner ++ [quote]) :
    between? raw ⟨quote.utf8Size⟩ ⟨raw.utf8ByteSize - quote.utf8Size⟩ =
      some (String.ofList inner) := by
  have hraw := eq_append_of_quoted h
  refine between?_eq_some_iff.2 ⟨String.singleton quote, String.singleton quote, hraw, ?_, ?_⟩
  · simp [String.rawEndPos]
  · rw [hraw]
    simp [String.rawEndPos]

theorem between?_of_lone (h : raw.toList = [quote]) :
    between? raw ⟨quote.utf8Size⟩ ⟨raw.utf8ByteSize - quote.utf8Size⟩ = none := by
  have hsize := utf8ByteSize_of_toList_singleton h
  have hpos := quote.utf8Size_pos
  refine between?_eq_none_iff.2 fun hbounds => ?_
  have hle : quote.utf8Size ≤ raw.utf8ByteSize - quote.utf8Size :=
    String.Pos.Raw.le_iff.1 hbounds.2.2
  omega

theorem StartsAndEnds.of_quoted (h : raw.toList = quote :: inner ++ [quote]) :
    StartsAndEnds raw quote := by
  have hsize : raw.utf8ByteSize =
      quote.utf8Size + (String.ofList inner).utf8ByteSize + quote.utf8Size := by
    rw [eq_append_of_quoted h]
    simp
  have hpos := quote.utf8Size_pos
  exact ⟨by rw [h]; rfl, by rw [h, List.getLast?_concat], by omega⟩

theorem StartsAndEnds.of_lone (h : raw.toList = [quote]) (hsize : 1 < quote.utf8Size) :
    StartsAndEnds raw quote := by
  have hraw := utf8ByteSize_of_toList_singleton h
  exact ⟨by rw [h]; rfl, by rw [h]; rfl, by omega⟩

theorem StartsAndEnds.quoted_or_lone (h : StartsAndEnds raw quote) :
    (∃ inner, raw.toList = quote :: inner ++ [quote]) ∨
      raw.toList = [quote] ∧ 1 < quote.utf8Size := by
  obtain ⟨rest, hrest⟩ := List.head?_eq_some_iff.1 h.starts
  have hends := h.ends
  rw [hrest] at hends ⊢
  -- the last character is the first one itself exactly if nothing follows it
  cases rest using List.reverseRecOn with
  | nil =>
      have hraw := utf8ByteSize_of_toList_singleton hrest
      have hsize := h.size
      exact .inr ⟨rfl, by omega⟩
  | append_singleton inner last =>
      rw [← List.cons_append, List.getLast?_concat] at hends
      obtain rfl := Option.some.inj hends
      exact .inl ⟨inner, rfl⟩

theorem not_isLoneWide_of_quoted (h : raw.toList = quote :: inner ++ [quote]) :
    ¬ IsLoneWide raw := by
  rintro ⟨c, hc, -⟩
  simp [h] at hc

theorem StartsAndEnds.delimits_iff (h : StartsAndEnds raw quote) :
    Delimits raw ⟨quote.utf8Size⟩ ⟨raw.utf8ByteSize - quote.utf8Size⟩ ↔ ¬ IsLoneWide raw := by
  rw [← not_iff_not, ← between?_eq_none_iff, Classical.not_not]
  rcases h.quoted_or_lone with ⟨inner, hraw⟩ | ⟨hraw, hsize⟩
  · simp [between?_of_quoted hraw, not_isLoneWide_of_quoted hraw]
  · exact iff_of_true (between?_of_lone hraw) ⟨quote, hraw, hsize⟩

theorem isLoneWideChar_iff : isLoneWideChar raw = true ↔ IsLoneWide raw := by
  unfold isLoneWideChar
  split
  · next c hc => simp [IsLoneWide, hc]
  · next hraw =>
      have hlone : ¬ IsLoneWide raw := fun ⟨c, hc, _⟩ => hraw c hc
      simp [hlone]

theorem unquote_of_lone (h : IsLoneWide raw) : unquote raw = .error (.splitsCharacter raw) := by
  rw [unquote, if_pos (isLoneWideChar_iff.2 h)]

theorem unquote_of_quoted (h : raw.toList = quote :: inner ++ [quote]) :
    unquote raw = decoded raw quote inner := by
  have hlast : (inner ++ [quote]).getLast? = some quote := List.getLast?_concat
  rw [unquote, if_neg (mt isLoneWideChar_iff.1 (not_isLoneWide_of_quoted h)), h]
  simp only [List.cons_append, hlast, if_true, List.dropLast_concat]
  rfl

theorem unquote_of_not_startsAndEnds (h : ∀ quote, ¬ StartsAndEnds raw quote) :
    unquote raw = .error (.invalidString raw) := by
  have hlone : ¬ IsLoneWide raw := fun ⟨c, hc, hsize⟩ => h c (.of_lone hc hsize)
  rw [unquote, if_neg (mt isLoneWideChar_iff.1 hlone)]
  split
  · rfl
  · next quote rest hraw =>
      refine if_neg fun hlast => ?_
      obtain ⟨inner, rfl⟩ := List.getLast?_eq_some_iff.1 hlast
      exact h quote (.of_quoted hraw)

theorem unquoteBetween_of_startsAndEnds (h : StartsAndEnds raw quote) :
    unquoteBetween raw =
      match between? raw ⟨quote.utf8Size⟩ ⟨raw.utf8ByteSize - quote.utf8Size⟩ with
      | none => .error (.splitsCharacter raw)
      | some inner => decoded raw quote inner.toList := by
  obtain ⟨rest, hraw⟩ := List.head?_eq_some_iff.1 h.starts
  have hcheck : ¬ (raw.utf8ByteSize < 2 ∨ raw.toList.getLast? ≠ some quote) := by
    rw [not_or, Nat.not_lt, Classical.not_not]
    exact ⟨h.size, h.ends⟩
  unfold unquoteBetween
  split
  · next hnil => simp [hraw] at hnil
  · next first _ hfirst =>
      obtain ⟨rfl, -⟩ := List.cons.inj (hraw.symm.trans hfirst)
      rw [if_neg hcheck]

theorem unquoteBetween_of_not_startsAndEnds (h : ∀ quote, ¬ StartsAndEnds raw quote) :
    unquoteBetween raw = .error (.invalidString raw) := by
  unfold unquoteBetween
  split
  · rfl
  · next quote rest hraw =>
      refine if_pos ?_
      by_contra hcheck
      rw [not_or, Nat.not_lt, Classical.not_not] at hcheck
      exact h quote ⟨by rw [hraw]; rfl, hcheck.2, hcheck.1⟩

theorem unquote_eq_unquoteBetween (raw : String) : unquote raw = unquoteBetween raw := by
  by_cases h : ∃ quote, StartsAndEnds raw quote
  · obtain ⟨quote, hends⟩ := h
    rw [unquoteBetween_of_startsAndEnds hends]
    rcases hends.quoted_or_lone with ⟨inner, hraw⟩ | ⟨hraw, hsize⟩
    · rw [unquote_of_quoted hraw, between?_of_quoted hraw]
      simp only [String.toList_ofList]
    · rw [unquote_of_lone ⟨quote, hraw, hsize⟩, between?_of_lone hraw]
  · rw [unquote_of_not_startsAndEnds (not_exists.1 h),
      unquoteBetween_of_not_startsAndEnds (not_exists.1 h)]

theorem cutsCharacter_unquote_iff : CutsCharacter (unquote raw) ↔ IsLoneWide raw := by
  constructor
  · rintro ⟨text, htext⟩
    by_contra hlone
    have hwide : ∀ c, raw.toList = [c] → c.utf8Size = 1 := by
      intro c hc
      have hsize : ¬ 1 < c.utf8Size := fun h => hlone ⟨c, hc, h⟩
      have hpos := c.utf8Size_pos
      omega
    cases unquote_eq_error_inj hwide htext
  · exact fun h => ⟨raw, unquote_of_lone h⟩

end Slices

section Imports

open ProviderManual.Schema

variable {spec : ImportSpec} {e : LiteralError}

theorem ImportSpec.fault?_eq_some_iff :
    spec.fault? = some e ↔ spec.name ≠ some "_" ∧ unquote spec.path = .error e := by
  unfold ImportSpec.fault?
  split
  · next hblank => simp [hblank]
  · next hname => cases unquote spec.path <;> simp [hname]

theorem ImportSpec.fault?_eq_none_iff :
    spec.fault? = none ↔ (spec.name ≠ some "_" → ∃ path, unquote spec.path = .ok path) := by
  unfold ImportSpec.fault?
  split
  · next hblank => simp [hblank]
  · next hname => cases unquote spec.path <;> simp [hname]

theorem ofSpecs_eq_error_iff {specs : List ImportSpec} :
    ImportMap.ofSpecs specs = .error e ↔
      ∃ before spec after, specs = before ++ spec :: after ∧ spec.name ≠ some "_" ∧
        unquote spec.path = .error e ∧
        ∀ s ∈ before, s.name ≠ some "_" → ∃ path, unquote s.path = .ok path := by
  have hfold : ImportMap.ofSpecs specs = .error e ↔
      specs.findSome? ImportSpec.fault? = some e := by
    rw [ImportMap.ofSpecs, foldlM_addImport]
    cases specs.findSome? ImportSpec.fault? <;> simp
  simp only [hfold, List.findSome?_eq_some_iff, ImportSpec.fault?_eq_some_iff,
    ImportSpec.fault?_eq_none_iff, and_assoc]

theorem cutsCharacter_ofSpecs_iff (specs : List ImportSpec) :
    CutsCharacter (ImportMap.ofSpecs specs) ↔
      ∃ before spec after, specs = before ++ spec :: after ∧ spec.name ≠ some "_" ∧
        IsLoneWide spec.path ∧
        ∀ s ∈ before, s.name ≠ some "_" → ∃ path, unquote s.path = .ok path := by
  constructor
  · rintro ⟨text, htext⟩
    obtain ⟨before, spec, after, hsplit, hname, hpath, hbefore⟩ := ofSpecs_eq_error_iff.1 htext
    exact ⟨before, spec, after, hsplit, hname, cutsCharacter_unquote_iff.1 ⟨text, hpath⟩, hbefore⟩
  · rintro ⟨before, spec, after, hsplit, hname, hlone, hbefore⟩
    exact ⟨spec.path, ofSpecs_eq_error_iff.2
      ⟨before, spec, after, hsplit, hname, unquote_of_lone hlone, hbefore⟩⟩

end Imports

theorem cut_iff_lone_wide_character :
    (∀ raw, unquote raw = unquoteBetween raw) ∧
    (∀ raw, CutsCharacter (unquote raw) ↔ IsLoneWide raw) ∧
    (∀ raw quote, StartsAndEnds raw quote →
      (Delimits raw ⟨quote.utf8Size⟩ ⟨raw.utf8ByteSize - quote.utf8Size⟩ ↔ ¬ IsLoneWide raw)) ∧
    ∀ specs, CutsCharacter (Schema.ImportMap.ofSpecs specs) ↔
      ∃ before spec after, specs = before ++ spec :: after ∧ spec.name ≠ some "_" ∧
        IsLoneWide spec.path ∧
        ∀ s ∈ before, s.name ≠ some "_" → ∃ path, unquote s.path = .ok path :=
  ⟨unquote_eq_unquoteBetween, fun _ => cutsCharacter_unquote_iff, fun _ _ h => h.delimits_iff,
    cutsCharacter_ofSpecs_iff⟩

end ProviderManual.Source
