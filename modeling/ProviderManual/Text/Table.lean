import ProviderManual.Text.Order

namespace ProviderManual.Text

def Ascending {α : Type} (entries : List (String × α)) : Prop :=
  entries.Pairwise fun x y => BytesLt x.1 y.1

def insertEntry {α : Type} (name : String) (value : α) : List (String × α) → List (String × α)
  | [] => [(name, value)]
  | e :: es =>
      if name = e.1 then (name, value) :: es
      else if BytesLt name e.1 then (name, value) :: e :: es
      else e :: insertEntry name value es

theorem mem_insertEntry {α : Type} {name : String} {value : α} {es : List (String × α)}
    {x : String × α} (h : x ∈ insertEntry name value es) : x = (name, value) ∨ x ∈ es := by
  induction es with
  | nil => simpa [insertEntry] using h
  | cons e es ih =>
      simp only [insertEntry] at h
      split at h
      · rcases List.mem_cons.1 h with h | h
        · exact .inl h
        · exact .inr (List.mem_cons_of_mem _ h)
      · split at h
        · rcases List.mem_cons.1 h with h | h
          · exact .inl h
          · exact .inr h
        · rcases List.mem_cons.1 h with h | h
          · exact .inr (h ▸ List.mem_cons_self)
          · exact (ih h).imp_right (List.mem_cons_of_mem _)

theorem Ascending.insertEntry {α : Type} {es : List (String × α)} (h : Ascending es)
    (name : String) (value : α) : Ascending (insertEntry name value es) := by
  induction es with
  | nil => simp [Text.insertEntry, Ascending]
  | cons e es ih =>
      obtain ⟨he, hes⟩ := List.pairwise_cons.1 h
      simp only [Text.insertEntry]
      split
      · next heq => exact List.pairwise_cons.2 ⟨fun y hy => heq ▸ he y hy, hes⟩
      · split
        · next hlt =>
            refine List.pairwise_cons.2 ⟨fun y hy => ?_, h⟩
            rcases List.mem_cons.1 hy with rfl | hy
            · exact hlt
            · exact hlt.trans (he y hy)
        · next hne hlt =>
            refine List.pairwise_cons.2 ⟨fun y hy => ?_, ih hes⟩
            rcases mem_insertEntry hy with rfl | hy
            · exact BytesLt.of_not hlt hne
            · exact he y hy

/-- A table by name; the entries ascend, so that each name has one entry. -/
structure Table (α : Type) where
  entries : List (String × α)
  ascending : Ascending entries

namespace Table

variable {α : Type}

def empty : Table α :=
  ⟨[], List.Pairwise.nil⟩

instance : Inhabited (Table α) :=
  ⟨empty⟩

def insert (t : Table α) (name : String) (value : α) : Table α :=
  ⟨insertEntry name value t.entries, t.ascending.insertEntry name value⟩

def get? (t : Table α) (name : String) : Option α :=
  (t.entries.find? (·.1 = name)).map Prod.snd

def names (t : Table α) : List String :=
  t.entries.map Prod.fst

def size (t : Table α) : Nat :=
  t.entries.length

def ofList (entries : List (String × α)) : Table α :=
  entries.foldl (fun t e => t.insert e.1 e.2) empty

@[simp] theorem get?_empty (name : String) : (empty : Table α).get? name = none := rfl

theorem find?_insertEntry (es : List (String × α)) (name other : String) (value : α) :
    (insertEntry name value es).find? (·.1 = other) =
      if name = other then some (name, value) else es.find? (·.1 = other) := by
  induction es with
  | nil => by_cases h : name = other <;> simp [insertEntry, h]
  | cons e es ih =>
      simp only [insertEntry]
      split
      · next heq =>
          subst heq
          by_cases h : e.1 = other <;> simp [h]
      · split
        · by_cases h : name = other <;> simp [h]
        · next hne _ =>
            by_cases h : name = other
            · subst h
              have : ¬ e.1 = name := fun h => hne h.symm
              simpa [this] using ih
            · simp [List.find?_cons, ih, h]

theorem get?_insert (t : Table α) (name other : String) (value : α) :
    (t.insert name value).get? other = if name = other then some value else t.get? other := by
  simp only [get?, insert, find?_insertEntry]
  split <;> rfl

theorem get?_eq_none_iff (t : Table α) (name : String) :
    t.get? name = none ↔ name ∉ t.names := by
  simp only [get?, names, Option.map_eq_none_iff, List.find?_eq_none, decide_eq_true_eq,
    List.mem_map, not_exists, not_and]

theorem isSome_get?_iff (t : Table α) (name : String) :
    (t.get? name).isSome = true ↔ name ∈ t.names := by
  rw [Option.isSome_iff_ne_none, Ne, get?_eq_none_iff, Classical.not_not]

theorem foldl_observe {σ β γ : Type} {step : σ → β → σ} (observe : σ → Option γ)
    {sets : β → Prop} [DecidablePred sets] {value : β → γ}
    (hstep : ∀ s x, observe (step s x) = if sets x then some (value x) else observe s)
    (xs : List β) (s : σ) :
    observe (xs.foldl step s) = ((xs.filter sets).getLast?.map value).or (observe s) := by
  induction xs generalizing s with
  | nil => rfl
  | cons x xs ih =>
      rw [List.foldl_cons, ih, hstep]
      by_cases hx : sets x
      · have hfilter : (x :: xs).filter sets = x :: xs.filter sets :=
          List.filter_cons_of_pos (decide_eq_true hx)
        rw [if_pos hx, hfilter, List.getLast?_cons]
        cases (xs.filter sets).getLast? <;> rfl
      · have hfilter : (x :: xs).filter sets = xs.filter sets :=
          List.filter_cons_of_neg (by simpa using hx)
        rw [if_neg hx, hfilter]

theorem get?_ofList (entries : List (String × α)) (name : String) :
    (ofList entries).get? name = (entries.filter (·.1 = name)).getLast?.map Prod.snd := by
  have hstep : ∀ (t : Table α) (e : String × α), (t.insert e.1 e.2).get? name =
      if e.1 = name then some e.2 else t.get? name :=
    fun t e => get?_insert t e.1 name e.2
  have hfold := foldl_observe (fun t : Table α => t.get? name) hstep entries empty
  rw [get?_empty, Option.or_none] at hfold
  exact hfold

theorem mem_names_of_get? {t : Table α} {name : String} {value : α}
    (h : t.get? name = some value) : name ∈ t.names := by
  apply Classical.byContradiction
  intro hn
  rw [(get?_eq_none_iff t name).2 hn] at h
  cases h

end Table

end ProviderManual.Text
