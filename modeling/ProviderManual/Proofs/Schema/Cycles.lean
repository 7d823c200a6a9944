import ProviderManual.Proofs.Schema.References

/-! Cyclic references and cycles of the graph of builders. -/

namespace ProviderManual.Schema

open ProviderManual.Source ProviderManual.Manual

def Fault.IsCyclic (f : Fault) : Prop :=
  ∃ b, f = .cyclicReference b

theorem Fault.IsReading.not_isCyclic {f : Fault} (h : f.IsReading) : ¬ f.IsCyclic := by
  rintro ⟨b, rfl⟩
  exact h

def ReportsCycle {α : Type} (o : Outcome α) : Prop :=
  ∃ e ∈ errorsOf o, e.fault.IsCyclic

theorem ReportsCycle.isError {α : Type} {o : Outcome α} (h : ReportsCycle o) :
    ∃ es, o = .error es := by
  obtain ⟨e, he, -⟩ := h
  cases o with
  | ok a => cases he
  | error es => exact ⟨es, rfl⟩

theorem reportsCycle_singleton {α : Type} (path : Path) (f : Fault) :
    ReportsCycle (.error [⟨path, f⟩] : Outcome α) ↔ f.IsCyclic := by
  simp [ReportsCycle]

section Calls

variable (index : Index) (modules : Modules)

theorem reportsCycle_attributes (s : List String) (path : Path) (elements : List Expr) :
    ReportsCycle (resolveAttributes index modules s path elements) ↔
      ∃ x ∈ elements, ReportsCycle (resolveElement index modules s path x) := by
  simp only [ReportsCycle, errorsOf_attributes, List.mem_flatMap]
  constructor
  · rintro ⟨e, ⟨x, hx, he⟩, hc⟩
    exact ⟨x, hx, e, he, hc⟩
  · rintro ⟨x, hx, e, he, hc⟩
    exact ⟨e, ⟨x, hx, he⟩, hc⟩

theorem reportsCycle_element (s : List String) (path : Path) (x : Expr) :
    ReportsCycle (resolveElement index modules s path x) ↔
      ∃ name value, elementParts x = .ok (name, value) ∧
        ((∃ fields, fieldSource value = .ok (.inline fields) ∧
            ReportsCycle (buildAttribute index modules s (path ++ [name]) name fields)) ∨
          ∃ b, fieldSource value = .ok (.builder b) ∧
            ReportsCycle (resolveBuilder index modules s (path ++ [name]) name b)) :=
  resolveElement_iff fun path e he h => he.not_isCyclic ((reportsCycle_singleton path e).1 h)

theorem reportsCycle_builder (s : List String) (path : Path) (name b : String) :
    ReportsCycle (resolveBuilder index modules s path name b) ↔
      ∃ d, index.schema? b = some d ∧ (b ∈ s ∨ b ∉ s ∧ ∃ l, builderLiteral modules d = some l ∧
        ReportsCycle (buildAttribute index modules (b :: s) path name l.elements)) := by
  rw [resolveBuilder_eq]
  cases hd : index.schema? b with
  | none => simp [reportsCycle_singleton, Fault.IsCyclic]
  | some d =>
      by_cases hb : b ∈ s
      · simp [hb, reportsCycle_singleton, Fault.IsCyclic]
      · cases hl : builderLiteral modules d with
        | none => simp [hb, hl, reportsCycle_singleton, Fault.IsCyclic]
        | some l => simp [hb, hl]

theorem reportsCycle_field (s : List String) (path : Path) (name : String) (fields : List Expr) :
    ReportsCycle (buildAttribute index modules s path name fields) ↔
      ∃ l, nestedSchema fields = .ok (some l) ∧
        ReportsCycle (resolveAttributes index modules s path l.elements) := by
  have hscalars : ∀ e ∈ (Scalars.ofElements fields).faults.map (ResolveError.mk path),
      ¬ e.fault.IsCyclic := by
    intro e he
    obtain ⟨f, hf, rfl⟩ := List.mem_map.1 he
    exact (isReading_of_mem_faults hf).not_isCyclic
  have hnested (o : Outcome (List Attribute)) :
      ReportsCycle (assemble path name fields o) ↔ ReportsCycle o := by
    simp only [ReportsCycle, errorsOf_assemble, List.mem_append]
    constructor
    · rintro ⟨e, he | he, hc⟩
      · exact absurd hc (hscalars e he)
      · exact ⟨e, he, hc⟩
    · rintro ⟨e, he, hc⟩
      exact ⟨e, .inr he, hc⟩
  rw [buildAttribute_eq, hnested]
  rcases hn : nestedSchema fields with e | l
  · have := (FailsReading.nestedSchema fields e hn).not_isCyclic
    simp [reportsCycle_singleton, this]
  · cases l with
    | none => simp [ReportsCycle]
    | some l => simp

end Calls

variable {index : Index} {modules : Modules}

theorem reaches_of_reportsCycle :
    (∀ s path elements, ReportsCycle (resolveAttributes index modules s path elements) →
      ∃ c, Reaches index modules elements c ∧ (c ∈ s ∨ OnCycle index modules c)) ∧
    (∀ s path x, ReportsCycle (resolveElement index modules s path x) →
      ∃ c, Reaches index modules [x] c ∧ (c ∈ s ∨ OnCycle index modules c)) ∧
    (∀ s path name b, ReportsCycle (resolveBuilder index modules s path name b) →
      ∃ c, Relation.ReflTransGen (Edge index modules) b c ∧
        (c ∈ s ∨ OnCycle index modules c)) ∧
    (∀ s path name fields, ReportsCycle (buildAttribute index modules s path name fields) →
      ∃ c, FieldReaches index modules fields c ∧ (c ∈ s ∨ OnCycle index modules c)) := by
  refine resolution_induct index modules ?_ ?_ ?_ ?_
  · intro s path elements ih h
    obtain ⟨x, hx, hcycle⟩ := (reportsCycle_attributes index modules s path elements).1 h
    obtain ⟨c, hreach, hc⟩ := ih x hx hcycle
    exact ⟨c, reaches_iff_exists.2 ⟨x, hx, hreach⟩, hc⟩
  · intro s path x hinline hbuilder h
    obtain ⟨name, value, hp, h⟩ := (reportsCycle_element index modules s path x).1 h
    rcases h with ⟨fields, hs, h⟩ | ⟨b, hs, h⟩
    · obtain ⟨c, hreach, hc⟩ := hinline name value fields hp hs h
      exact ⟨c, reaches_singleton_iff.2 ⟨name, value, hp, .inl ⟨fields, hs, hreach⟩⟩, hc⟩
    · obtain ⟨c, hreach, hc⟩ := hbuilder name value b hp hs h
      exact ⟨c, reaches_singleton_iff.2 ⟨name, value, hp, .inr ⟨b, hs, hreach⟩⟩, hc⟩
  · intro s path name b ih h
    obtain ⟨d, hd, hb | ⟨hb, l, hl, h⟩⟩ := (reportsCycle_builder index modules s path name b).1 h
    · exact ⟨b, .refl, .inl hb⟩
    · obtain ⟨c, ⟨b', hb', hreach⟩, hc⟩ := ih d l hd hb hl h
      have hedge : Edge index modules b b' := edge_of_fieldRefers hd hl hb'
      rcases hc with hc | hc
      · rcases List.mem_cons.1 hc with rfl | hc
        -- the search came back to the builder it expands: `c` is `b`, and the way back is a cycle
        · exact ⟨c, .refl, .inr (.head' hedge hreach)⟩
        · exact ⟨c, .head hedge hreach, .inl hc⟩
      · exact ⟨c, .head hedge hreach, .inr hc⟩
  · intro s path name fields ih h
    obtain ⟨l, hn, h⟩ := (reportsCycle_field index modules s path name fields).1 h
    obtain ⟨c, hreach, hc⟩ := ih l hn h
    exact ⟨c, fieldReaches_iff.2 ⟨l, hn, hreach⟩, hc⟩

theorem exists_fieldReaches_of_onCycle {b c : String} (hc : OnCycle index modules c)
    (h : Relation.ReflTransGen (Edge index modules) b c) :
    ∃ d l, index.schema? b = some d ∧ builderLiteral modules d = some l ∧
      FieldReaches index modules l.elements c := by
  have hstep : Relation.TransGen (Edge index modules) b c := .trans_right h hc
  obtain ⟨b', hedge, hreach⟩ := Relation.TransGen.head'_iff.1 hstep
  obtain ⟨d, l, hd, hl, hb'⟩ := exists_fieldRefers_of_edge hedge
  exact ⟨d, l, hd, hl, b', hb', hreach⟩

theorem reportsCycle_of_reaches {c : String} (hc : OnCycle index modules c) :
    (∀ s path elements, Reaches index modules elements c →
      ReportsCycle (resolveAttributes index modules s path elements)) ∧
    (∀ s path x, Reaches index modules [x] c →
      ReportsCycle (resolveElement index modules s path x)) ∧
    (∀ s path name b, Relation.ReflTransGen (Edge index modules) b c →
      ReportsCycle (resolveBuilder index modules s path name b)) ∧
    (∀ s path name fields, FieldReaches index modules fields c →
      ReportsCycle (buildAttribute index modules s path name fields)) := by
  refine resolution_induct index modules ?_ ?_ ?_ ?_
  · intro s path elements ih h
    obtain ⟨x, hx, h⟩ := reaches_iff_exists.1 h
    exact (reportsCycle_attributes index modules s path elements).2 ⟨x, hx, ih x hx h⟩
  · intro s path x hinline hbuilder h
    obtain ⟨name, value, hp, h⟩ := reaches_singleton_iff.1 h
    refine (reportsCycle_element index modules s path x).2 ⟨name, value, hp, ?_⟩
    rcases h with ⟨fields, hs, h⟩ | ⟨b, hs, h⟩
    · exact .inl ⟨fields, hs, hinline name value fields hp hs h⟩
    · exact .inr ⟨b, hs, hbuilder name value b hp hs h⟩
  · intro s path name b ih h
    -- even if `b` is the builder on the cycle, its field schema leads once more around
    obtain ⟨d, l, hd, hl, hfields⟩ := exists_fieldReaches_of_onCycle hc h
    refine (reportsCycle_builder index modules s path name b).2 ⟨d, hd, ?_⟩
    by_cases hb : b ∈ s
    · exact .inl hb
    · exact .inr ⟨hb, l, hl, ih d l hd hb hl hfields⟩
  · intro s path name fields ih h
    obtain ⟨l, hn, h⟩ := fieldReaches_iff.1 h
    exact (reportsCycle_field index modules s path name fields).2 ⟨l, hn, ih l hn h⟩

/-- A resolution reports a cyclic reference exactly when calls lead from its literal to a cycle. -/
theorem cyclic_reference_iff_reachable_cycle (index : Index) (modules : Modules) (path : Path)
    (elements : List Expr) :
    (∃ es, resolveAt index modules path elements = .error es ∧
        ∃ e ∈ es, ∃ b, e.fault = .cyclicReference b) ↔
      ∃ b c, Refers elements b ∧ Relation.ReflTransGen (Edge index modules) b c ∧
        Relation.TransGen (Edge index modules) c c := by
  rw [resolveAt_eq]
  constructor
  · rintro ⟨es, hes, e, he, hcyclic⟩
    have hreports : ReportsCycle (resolveAttributes index modules [] path elements) :=
      ⟨e, by rwa [hes], hcyclic⟩
    obtain ⟨c, ⟨b, hb, hreach⟩, hc | hc⟩ := reaches_of_reportsCycle.1 [] path elements hreports
    · cases hc
    · exact ⟨b, c, hb, hreach, hc⟩
  · rintro ⟨b, c, hb, hreach, hc⟩
    have hreports := (reportsCycle_of_reaches hc).1 [] path elements ⟨b, hb, hreach⟩
    obtain ⟨es, hes⟩ := hreports.isError
    obtain ⟨e, he, hcyclic⟩ := hreports
    rw [hes] at he
    exact ⟨es, hes, e, he, hcyclic⟩

end ProviderManual.Schema
