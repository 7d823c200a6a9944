import ProviderManual.Manual.Generate
import ProviderManual.Proofs.Schema.References

/-! What a resolution depends on: the builders that calls lead to. -/

namespace ProviderManual.Schema

open ProviderManual.Source ProviderManual.Manual

/-- Two resolutions see a builder alike: with the same declaration or with none, and under expansion
in both or in neither. -/
structure SeenAlike (index index' : Index) (s t : List String) (c : String) : Prop where
  declared : index.schema? c = index'.schema? c
  expanding : c ∈ s ↔ c ∈ t

variable {index index' : Index} {modules : Modules}

theorem SeenAlike.cons {s t : List String} {c : String} (h : SeenAlike index index' s t c)
    (b : String) : SeenAlike index index' (b :: s) (b :: t) c :=
  ⟨h.declared, by rw [List.mem_cons, List.mem_cons, h.expanding]⟩

theorem resolves_congr :
    (∀ s path elements, ∀ t,
      (∀ c, Reaches index modules elements c → SeenAlike index index' s t c) →
      resolveAttributes index modules s path elements =
        resolveAttributes index' modules t path elements) ∧
    (∀ s path x, ∀ t, (∀ c, Reaches index modules [x] c → SeenAlike index index' s t c) →
      resolveElement index modules s path x = resolveElement index' modules t path x) ∧
    (∀ s path name b, ∀ t,
      (∀ c, Relation.ReflTransGen (Edge index modules) b c → SeenAlike index index' s t c) →
      resolveBuilder index modules s path name b = resolveBuilder index' modules t path name b) ∧
    (∀ s path name fields, ∀ t,
      (∀ c, FieldReaches index modules fields c → SeenAlike index index' s t c) →
      buildAttribute index modules s path name fields =
        buildAttribute index' modules t path name fields) := by
  refine resolution_induct index modules ?_ ?_ ?_ ?_
  · intro s path elements ih t h
    have helements : elements.map (resolveElement index modules s path) =
        elements.map (resolveElement index' modules t path) :=
      List.map_congr_left fun x hx =>
        ih x hx t fun c hc => h c (reaches_iff_exists.2 ⟨x, hx, hc⟩)
    rw [resolveAttributes_eq, resolveAttributes_eq, helements]
  · intro s path x hinline hbuilder t h
    rw [resolveElement_eq, resolveElement_eq]
    rcases hp : elementParts x with e | ⟨name, value⟩
    · rfl
    · dsimp only
      rcases hs : fieldSource value with e | source
      · rfl
      · cases source with
        | inline fields =>
            exact hinline name value fields hp hs t fun c hc =>
              h c (reaches_singleton_iff.2 ⟨name, value, hp, .inl ⟨fields, hs, hc⟩⟩)
        | builder b =>
            exact hbuilder name value b hp hs t fun c hc =>
              h c (reaches_singleton_iff.2 ⟨name, value, hp, .inr ⟨b, hs, hc⟩⟩)
  · intro s path name b ih t h
    obtain ⟨hdeclared, hmem⟩ := h b .refl
    rw [resolveBuilder_eq, resolveBuilder_eq, ← hdeclared]
    cases hd : index.schema? b with
    | none => rfl
    | some d =>
        by_cases hb : b ∈ s
        · simp [hb, hmem.1 hb]
        · cases hl : builderLiteral modules d with
          | none => simp [hb, mt hmem.2 hb, hl]
          | some l =>
              -- both runs enter `b`, so they still see alike what its field schema leads to
              have hfields := ih d l hd hb hl (b :: t) fun c ⟨b', hb', hreach⟩ =>
                (h c (.head (edge_of_fieldRefers hd hl hb') hreach)).cons b
              simp [hb, mt hmem.2 hb, hl, hfields]
  · intro s path name fields ih t h
    rw [buildAttribute_eq, buildAttribute_eq]
    rcases hn : nestedSchema fields with e | l
    · rfl
    · cases l with
      | none => rfl
      | some l =>
          have hl := ih l hn t fun c hc => h c (fieldReaches_iff.2 ⟨l, hn, hc⟩)
          dsimp only
          rw [hl]

theorem indexed_of_resolves :
    (∀ s path elements, (∃ as, resolveAttributes index modules s path elements = .ok as) →
      ∀ c, Reaches index modules elements c → ∃ d, index.schema? c = some d) ∧
    (∀ s path x, (∃ a, resolveElement index modules s path x = .ok a) →
      ∀ c, Reaches index modules [x] c → ∃ d, index.schema? c = some d) ∧
    (∀ s path name b, (∃ a, resolveBuilder index modules s path name b = .ok a) →
      ∀ c, Relation.ReflTransGen (Edge index modules) b c → ∃ d, index.schema? c = some d) ∧
    (∀ s path name fields, (∃ a, buildAttribute index modules s path name fields = .ok a) →
      ∀ c, FieldReaches index modules fields c → ∃ d, index.schema? c = some d) := by
  refine resolution_induct index modules ?_ ?_ ?_ ?_
  · intro s path elements ih h c hc
    obtain ⟨x, hx, hc⟩ := reaches_iff_exists.1 hc
    exact ih x hx (exists_resolveAttributes_eq_ok_iff.1 h x hx) c hc
  · intro s path x hinline hbuilder h c hc
    obtain ⟨name, value, hp, ⟨fields, hs, hc⟩ | ⟨b, hs, hc⟩⟩ := reaches_singleton_iff.1 hc
    · simp only [resolveElement_eq, hp, hs] at h
      exact hinline name value fields hp hs h c hc
    · simp only [resolveElement_eq, hp, hs] at h
      exact hbuilder name value b hp hs h c hc
  · rintro s path name b ih ⟨a, h⟩ c hc
    obtain ⟨hb, d, l, hd, hl, h⟩ := resolveBuilder_eq_ok_iff.1 h
    -- the builder itself is indexed, or the call was expanded and leads on from its field schema
    rcases Relation.ReflTransGen.cases_head hc with rfl | ⟨b', hedge, hreach⟩
    · exact ⟨d, hd⟩
    · exact ih d l hd hb hl ⟨a, h⟩ c ⟨b', fieldRefers_of_edge hd hl hedge, hreach⟩
  · rintro s path name fields ih ⟨a, h⟩ c hc
    obtain ⟨l, hn, hc⟩ := fieldReaches_iff.1 hc
    rw [buildAttribute_eq, hn] at h
    exact ih l hn ⟨a.attributes, (assemble_eq_ok_iff.1 h).1⟩ c hc

theorem resolveAt_congr {path : Path} {elements : List Expr}
    (h : ∀ b, Reaches index modules elements b → index.schema? b = index'.schema? b) :
    resolveAt index modules path elements = resolveAt index' modules path elements := by
  rw [resolveAt_eq, resolveAt_eq]
  exact resolves_congr.1 [] path elements [] fun c hc => ⟨h c hc, Iff.rfl⟩

theorem resolveAt_of_extends (hext : ∀ b d, index.schema? b = some d → index'.schema? b = some d)
    {path : Path} {elements : List Expr} {as : List Attribute}
    (h : resolveAt index modules path elements = .ok as) :
    resolveAt index' modules path elements = .ok as := by
  have hagree : ∀ b, Reaches index modules elements b → index.schema? b = index'.schema? b := by
    intro b hb
    rw [resolveAt_eq] at h
    obtain ⟨d, hd⟩ := indexed_of_resolves.1 [] path elements ⟨as, h⟩ b hb
    rw [hd, hext b d hd]
  rw [← resolveAt_congr hagree, h]

section Build

variable {provider namePrefix name : String} {type : ResourceType} {d : Decl}

theorem build_congr
    (h : ∀ l, findSchemaField d.func.roots = .ok (some l) →
      resolve index modules l.elements = resolve index' modules l.elements) :
    Workshop.build ⟨index, modules, provider, namePrefix⟩ name type d =
      Workshop.build ⟨index', modules, provider, namePrefix⟩ name type d := by
  unfold Workshop.build
  cases suffixOf? namePrefix name with
  | none => rfl
  | some suffix =>
      dsimp only
      rcases hl : findSchemaField d.func.roots with e | l
      · rfl
      · cases l with
        | none => rfl
        | some l => simp only [h l hl]

theorem resolves_of_build {r : Resource} {l : Literal}
    (h : Workshop.build ⟨index, modules, provider, namePrefix⟩ name type d = .ok r)
    (hl : findSchemaField d.func.roots = .ok (some l)) :
    ∃ as, resolve index modules l.elements = .ok as := by
  unfold Workshop.build at h
  cases hs : suffixOf? namePrefix name with
  | none => simp [hs] at h
  | some suffix =>
      cases hr : resolve index modules l.elements with
      | error es => simp [hs, hl, hr] at h
      | ok as => exact ⟨as, rfl⟩

end Build

/-- The outcome of a literal depends on the index only through the builders that calls lead to. -/
theorem outcome_determined_by_reached_builders (modules : Modules) :
    (∀ index index' path elements,
      (∀ b, Reaches index modules elements b → index.schema? b = index'.schema? b) →
      resolveAt index modules path elements = resolveAt index' modules path elements) ∧
    (∀ index index' provider namePrefix name type d r,
      (∀ b e, index.schema? b = some e → index'.schema? b = some e) →
      Workshop.build ⟨index, modules, provider, namePrefix⟩ name type d = .ok r →
      Workshop.build ⟨index', modules, provider, namePrefix⟩ name type d = .ok r) ∧
    ∀ (index : Index) resources providerDecl,
      (∀ path elements,
        resolveAt { index with resources := resources, provider := providerDecl } modules path
          elements = resolveAt index modules path elements) ∧
      ∀ provider namePrefix name type d,
        Workshop.build ⟨{ index with resources := resources, provider := providerDecl }, modules,
          provider, namePrefix⟩ name type d =
          Workshop.build ⟨index, modules, provider, namePrefix⟩ name type d := by
  refine ⟨fun index index' path elements h => resolveAt_congr h, ?_, ?_⟩
  · intro index index' provider namePrefix name type d r hext h
    have hresolve : ∀ l, findSchemaField d.func.roots = .ok (some l) →
        resolve index modules l.elements = resolve index' modules l.elements := by
      intro l hl
      obtain ⟨as, has⟩ := resolves_of_build h hl
      exact has.trans (resolveAt_of_extends hext has).symm
    rw [← build_congr hresolve, h]
  · intro index resources providerDecl
    have hresolve (path : Path) (elements : List Expr) :
        resolveAt { index with resources := resources, provider := providerDecl } modules path
          elements = resolveAt index modules path elements :=
      resolveAt_congr fun b _ => rfl
    refine ⟨hresolve, ?_⟩
    intro provider namePrefix name type d
    exact build_congr fun l _ => hresolve [] l.elements

end ProviderManual.Schema
