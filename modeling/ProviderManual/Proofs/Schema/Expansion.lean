import ProviderManual.Proofs.Schema.References

/-! The finite expansions of schema literals, said without any builder under expansion. -/

namespace ProviderManual.Schema

open ProviderManual.Source ProviderManual.Manual

/-- An element stands for an attribute of a name, whose field schema has these fields: they are
written in place, or in the literal of the builder that is called. -/
inductive FieldSchemaOf (index : Index) (modules : Modules) : Expr → String → List Expr → Prop
  | inline {raw name type fields} :
      unquote raw = .ok name →
      FieldSchemaOf index modules (.keyValue (.basicLit .string raw) (.composite type fields))
        name fields
  | builder {raw name b args d l} :
      unquote raw = .ok name → index.schema? b = some d → IsBuilderLiteral modules d l →
      FieldSchemaOf index modules (.keyValue (.basicLit .string raw) (.call (.ident b) args))
        name l.elements

/-- The elements of a schema literal expand to attributes, one each and in their order. -/
inductive Expansion (index : Index) (modules : Modules) : List Expr → List Attribute → Prop
  | nil : Expansion index modules [] []
  | leaf {x xs fields a as} :
      FieldSchemaOf index modules x a.name fields → Describes fields a →
      nestedSchema fields = .ok none → a.attributes = [] →
      Expansion index modules xs as → Expansion index modules (x :: xs) (a :: as)
  | block {x xs fields l a as children} :
      FieldSchemaOf index modules x a.name fields → Describes fields a →
      nestedSchema fields = .ok (some l) → Expansion index modules l.elements children →
      a.attributes = sortAttributes children →
      Expansion index modules xs as → Expansion index modules (x :: xs) (a :: as)

section Derivations

variable {index : Index} {modules : Modules}

def FieldExpansion (index : Index) (modules : Modules) (fields : List Expr) (a : Attribute) :
    Prop :=
  Describes fields a ∧
    ((nestedSchema fields = .ok none ∧ a.attributes = []) ∨
      ∃ l children, nestedSchema fields = .ok (some l) ∧
        Expansion index modules l.elements children ∧ a.attributes = sortAttributes children)

theorem Expansion.cons {x : Expr} {xs fields : List Expr} {a : Attribute} {as : List Attribute}
    (hx : FieldSchemaOf index modules x a.name fields)
    (ha : FieldExpansion index modules fields a) (h : Expansion index modules xs as) :
    Expansion index modules (x :: xs) (a :: as) := by
  obtain ⟨hdesc, ⟨hn, hc⟩ | ⟨l, children, hn, hl, hc⟩⟩ := ha
  · exact .leaf hx hdesc hn hc h
  · exact .block hx hdesc hn hl hc h

theorem expansion_of_resolves :
    (∀ s path elements, ∀ as, resolveAttributes index modules s path elements = .ok as →
      ∃ bs, Expansion index modules elements bs ∧ as = sortAttributes bs) ∧
    (∀ s path x, ∀ a, resolveElement index modules s path x = .ok a →
      ∃ fields, FieldSchemaOf index modules x a.name fields ∧
        FieldExpansion index modules fields a) ∧
    (∀ s path name b, ∀ a, resolveBuilder index modules s path name b = .ok a →
      ∃ d l, index.schema? b = some d ∧ builderLiteral modules d = some l ∧ a.name = name ∧
        FieldExpansion index modules l.elements a) ∧
    (∀ s path name fields, ∀ a, buildAttribute index modules s path name fields = .ok a →
      a.name = name ∧ FieldExpansion index modules fields a) := by
  refine resolution_induct index modules ?_ ?_ ?_ ?_
  · intro s path elements ih as h
    obtain ⟨bs, hbs, rfl⟩ := resolveAttributes_eq_ok_iff.1 h
    refine ⟨bs, ?_, rfl⟩
    clear h
    -- the resolution's induction gives each element; the derivation is built along the list
    induction elements generalizing bs with
    | nil =>
        obtain rfl := List.map_eq_nil_iff.1 hbs.symm
        exact .nil
    | cons x xs ihxs =>
        cases bs with
        | nil => simp at hbs
        | cons b bs =>
            obtain ⟨hb, hbs⟩ := List.cons.inj hbs
            obtain ⟨fields, hx, hfields⟩ := ih x List.mem_cons_self b hb
            exact .cons hx hfields (ihxs (fun y hy => ih y (List.mem_cons_of_mem x hy)) bs hbs)
  · intro s path x hinline hbuilder a h
    obtain ⟨name, value, hp, h⟩ := resolveElement_eq_ok_iff.1 h
    obtain ⟨raw, hx, hu⟩ := elementParts_eq_ok_iff.1 hp
    rcases h with ⟨fields, hs, h⟩ | ⟨b, hs, h⟩
    · obtain ⟨hname, ha⟩ := hinline _ _ _ hp hs a h
      obtain ⟨type, hvalue⟩ := fieldSource_eq_inline_iff.1 hs
      subst hname hx hvalue
      exact ⟨fields, .inline hu, ha⟩
    · obtain ⟨d, l, hd, hl, hname, ha⟩ := hbuilder _ _ _ hp hs a h
      obtain ⟨args, hvalue⟩ := fieldSource_eq_builder_iff.1 hs
      subst hname hx hvalue
      exact ⟨l.elements, .builder hu hd (builderLiteral_eq_some_iff.1 hl), ha⟩
  · intro s path name b ih a h
    obtain ⟨hb, d, l, hd, hl, h⟩ := resolveBuilder_eq_ok_iff.1 h
    obtain ⟨ha, hfields⟩ := ih d l hd hb hl a h
    exact ⟨d, l, hd, hl, ha, hfields⟩
  · intro s path name fields ih a h
    obtain ⟨ha, hdesc, ⟨hn, hc⟩ | ⟨l, hn, h⟩⟩ := buildAttribute_eq_ok_iff.1 h
    · exact ⟨ha, hdesc, .inl ⟨hn, hc⟩⟩
    · obtain ⟨children, hl, hc⟩ := ih l hn _ h
      exact ⟨ha, hdesc, .inr ⟨l, children, hn, hl, hc⟩⟩

/-- No endless chain of calls starts at a builder. -/
def CallsEnd (index : Index) (modules : Modules) (b : String) : Prop :=
  Acc (fun c b => Edge index modules b c) b

theorem CallsEnd.reaches {b c : String} (h : CallsEnd index modules b)
    (hc : Relation.ReflTransGen (Edge index modules) b c) : CallsEnd index modules c := by
  induction hc with
  | refl => exact h
  | tail _ hedge ih => exact ih.inv hedge

theorem CallsEnd.not_onCycle {b : String} (h : CallsEnd index modules b) :
    ¬ OnCycle index modules b := by
  induction h with
  | intro b _ ih =>
      intro hcycle
      obtain ⟨c, hedge, hback⟩ := Relation.TransGen.head'_iff.1 hcycle
      exact ih c hedge (.tail' hback hedge)

theorem FieldSchemaOf.callsEnd {x : Expr} {name b : String} {fields : List Expr}
    (hx : FieldSchemaOf index modules x name fields)
    (hfields : ∀ c, FieldRefers fields c → CallsEnd index modules c) (hb : Refers [x] b) :
    CallsEnd index modules b := by
  obtain ⟨y, hy, _, value, hp, hb⟩ := refers_iff.1 hb
  obtain rfl := List.mem_singleton.1 hy
  obtain ⟨raw, hparts, -⟩ := elementParts_eq_ok_iff.1 hp
  cases hx with
  | inline hu =>
      cases hparts
      rcases hb with ⟨_, hs, hb⟩ | hs
      · cases hs
        exact hfields b hb
      · cases hs
  | builder hu hd hl =>
      cases hparts
      rcases hb with ⟨_, hs, hb⟩ | hs
      · cases hs
      · cases hs
        refine .intro b fun c hedge => hfields c ?_
        exact fieldRefers_of_edge hd (builderLiteral_eq_some_iff.2 hl) hedge

theorem Refers.cons {x : Expr} {xs : List Expr} {b : String} (h : Refers (x :: xs) b) :
    Refers [x] b ∨ Refers xs b := by
  obtain ⟨y, hy, hparts⟩ := refers_iff.1 h
  rcases List.mem_cons.1 hy with rfl | hy
  · exact .inl (refers_iff.2 ⟨y, List.mem_cons_self, hparts⟩)
  · exact .inr (refers_iff.2 ⟨y, hy, hparts⟩)

theorem Expansion.callsEnd {elements : List Expr} {as : List Attribute}
    (h : Expansion index modules elements as) :
    ∀ b, Refers elements b → CallsEnd index modules b := by
  induction h with
  | nil =>
      intro b hb
      obtain ⟨x, hx, -⟩ := refers_iff.1 hb
      cases hx
  | leaf hx _ hn _ _ ih =>
      intro b hb
      rcases hb.cons with hb | hb
      · refine hx.callsEnd (fun c hc => ?_) hb
        obtain ⟨l, hl, -⟩ := hc
        rw [hn] at hl
        cases hl
      · exact ih b hb
  | block hx _ hn _ _ _ ihl ih =>
      intro b hb
      rcases hb.cons with hb | hb
      · refine hx.callsEnd (fun c hc => ?_) hb
        obtain ⟨l, hl, hc⟩ := hc
        rw [hn] at hl
        cases hl
        exact ihl c hc
      · exact ih b hb

theorem Expansion.not_onCycle {elements : List Expr} {as : List Attribute}
    (h : Expansion index modules elements as) {c : String} (hc : Reaches index modules elements c) :
    ¬ OnCycle index modules c := by
  obtain ⟨b, hb, hc⟩ := hc
  exact ((h.callsEnd b hb).reaches hc).not_onCycle

theorem FieldSchemaOf.resolves {x : Expr} {name : String} {fields : List Expr} {a : Attribute}
    (hx : FieldSchemaOf index modules x name fields) {s : List String} {path : Path}
    (hs : ∀ c ∈ s, ¬ Reaches index modules [x] c)
    (hcycle : ∀ c, Reaches index modules [x] c → ¬ OnCycle index modules c)
    (hfields : ∀ t, (∀ c ∈ t, ¬ FieldReaches index modules fields c) →
      buildAttribute index modules t (path ++ [name]) name fields = .ok a) :
    resolveElement index modules s path x = .ok a := by
  cases hx with
  | @inline raw _ type _ hu =>
      have hp := elementParts_of_unquote hu (.composite type fields)
      refine resolveElement_eq_ok_iff.2 ⟨name, _, hp, .inl ⟨fields, rfl, hfields s ?_⟩⟩
      intro c hc hreach
      exact hs c hc (reaches_singleton_iff.2 ⟨name, _, hp, .inl ⟨fields, rfl, hreach⟩⟩)
  | @builder raw _ b args d l hu hd hl =>
      have hp := elementParts_of_unquote hu (.call (.ident b) args)
      have hl := builderLiteral_eq_some_iff.2 hl
      have hcall {c : String} (h : Relation.ReflTransGen (Edge index modules) b c) :
          Reaches index modules [.keyValue (.basicLit .string raw) (.call (.ident b) args)] c :=
        reaches_singleton_iff.2 ⟨name, _, hp, .inr ⟨b, rfl, h⟩⟩
      refine resolveElement_eq_ok_iff.2 ⟨name, _, hp, .inr ⟨b, rfl, ?_⟩⟩
      refine resolveBuilder_eq_ok_iff.2 ⟨fun hb => hs b hb (hcall .refl), d, l, hd, hl, ?_⟩
      refine hfields (b :: s) fun c hc => ?_
      rintro ⟨b', hb', hreach⟩
      have hedge : Edge index modules b b' := edge_of_fieldRefers hd hl hb'
      rcases List.mem_cons.1 hc with rfl | hc
      -- a builder that its own field schema reaches is on a cycle, and has no expansion
      · exact hcycle c (hcall .refl) (.head' hedge hreach)
      · exact hs c hc (hcall (.head hedge hreach))

theorem FieldSchemaOf.resolves_cons {x : Expr} {xs fields : List Expr} {a : Attribute}
    {as : List Attribute} (hx : FieldSchemaOf index modules x a.name fields)
    (h : Expansion index modules (x :: xs) (a :: as)) {s : List String} {path : Path}
    (hs : ∀ c ∈ s, ¬ Reaches index modules (x :: xs) c)
    (hfields : ∀ t, (∀ c ∈ t, ¬ FieldReaches index modules fields c) →
      buildAttribute index modules t (path ++ [a.name]) a.name fields = .ok a)
    (htail : (∀ c ∈ s, ¬ Reaches index modules xs c) →
      xs.map (resolveElement index modules s path) = as.map .ok) :
    (x :: xs).map (resolveElement index modules s path) = (a :: as).map .ok := by
  have hhead {c : String} (hc : Reaches index modules [x] c) : Reaches index modules (x :: xs) c :=
    hc.mono (by simp)
  have hresolves : resolveElement index modules s path x = .ok a :=
    hx.resolves (fun c hc hreach => hs c hc (hhead hreach))
      (fun c hreach => h.not_onCycle (hhead hreach)) hfields
  rw [List.map_cons, List.map_cons, hresolves,
    htail fun c hc hreach => hs c hc (hreach.mono (List.subset_cons_self x xs))]

theorem Expansion.resolves {elements : List Expr} {as : List Attribute}
    (h : Expansion index modules elements as) :
    ∀ s path, (∀ c ∈ s, ¬ Reaches index modules elements c) →
      elements.map (resolveElement index modules s path) = as.map .ok := by
  induction h with
  | nil => intro s path _; rfl
  | leaf hx hdesc hn hc htail ih =>
      intro s path hs
      refine hx.resolves_cons (.leaf hx hdesc hn hc htail) hs (fun t _ => ?_) (ih s path)
      exact buildAttribute_eq_ok_iff.2 ⟨rfl, hdesc, .inl ⟨hn, hc⟩⟩
  | @block x xs fields l a as children hx hdesc hn hl hc htail ihl ih =>
      intro s path hs
      refine hx.resolves_cons (.block hx hdesc hn hl hc htail) hs (fun t ht => ?_) (ih s path)
      have hchildren := ihl t (path ++ [a.name]) fun c hct hreach =>
        ht c hct (fieldReaches_iff.2 ⟨l, hn, hreach⟩)
      refine buildAttribute_eq_ok_iff.2 ⟨rfl, hdesc, .inr ⟨l, hn, ?_⟩⟩
      exact resolveAttributes_eq_ok_iff.2 ⟨children, hchildren, hc⟩

end Derivations

/-- A fresh resolution succeeds exactly on the literals that have a finite expansion; what it gives
is the expansion sorted by name. -/
theorem resolves_iff_expansion (index : Index) (modules : Modules) (path : Path)
    (elements : List Expr) (as : List Attribute) :
    resolveAt index modules path elements = .ok as ↔
      ∃ bs, Expansion index modules elements bs ∧ as = sortAttributes bs := by
  rw [resolveAt_eq]
  constructor
  · exact expansion_of_resolves.1 [] path elements as
  · rintro ⟨bs, h, rfl⟩
    exact resolveAttributes_eq_ok_iff.2 ⟨bs, h.resolves [] path (by simp), rfl⟩

end ProviderManual.Schema
