import Mathlib.Logic.Relation
import ProviderManual.Proofs.Schema.Outcome
import ProviderManual.Schema.Resolver

/-! The graph of builders. -/

namespace ProviderManual.Schema

open ProviderManual.Source ProviderManual.Manual

inductive Refers : List Expr → String → Prop
  | call {elements raw name b args} :
      .keyValue (.basicLit .string raw) (.call (.ident b) args) ∈ elements →
      unquote raw = .ok name → Refers elements b
  | nested {elements raw name type fields l b} :
      .keyValue (.basicLit .string raw) (.composite type fields) ∈ elements →
      unquote raw = .ok name → nestedSchema fields = .ok (some l) → Refers l.elements b →
      Refers elements b

def FieldRefers (fields : List Expr) (b : String) : Prop :=
  ∃ l, nestedSchema fields = .ok (some l) ∧ Refers l.elements b

def IsSchemaType (modules : Modules) (imports : ImportMap) (type : Expr) : Prop :=
  ∃ name, type = .selector (.ident name) "Schema" ∧ imports.get? name = some modules.schema

/-- The first literal of the schema type in the body of a builder, parents before children. -/
def IsBuilderLiteral (modules : Modules) (d : Decl) (l : Literal) : Prop :=
  ∃ before after, d.func.roots.flatMap Node.nodes = before ++ .expr l.toExpr :: after ∧
    (∃ type, l.type = some type ∧ IsSchemaType modules d.imports type) ∧
    ∀ type elements, .expr (.composite (some type) elements) ∈ before →
      ¬ IsSchemaType modules d.imports type

theorem isQualified_iff {imports : ImportMap} {modules : Modules} {type : Expr} :
    imports.isQualified modules.schema "Schema" type = true ↔ IsSchemaType modules imports type := by
  unfold ImportMap.isQualified IsSchemaType
  split
  · next name sel =>
      simp only [Bool.and_eq_true, decide_eq_true_eq, Expr.selector.injEq, Expr.ident.injEq]
      constructor
      · rintro ⟨rfl, h⟩
        exact ⟨name, ⟨rfl, rfl⟩, h⟩
      · rintro ⟨_, ⟨rfl, rfl⟩, h⟩
        exact ⟨rfl, h⟩
  · next h =>
      simp only [Bool.false_eq_true, false_iff]
      rintro ⟨name, rfl, -⟩
      exact h _ _ rfl

theorem literalOfType_eq_some_iff {imports : ImportMap} {modules : Modules} {n : Node}
    {l : Literal} :
    literalOfType imports modules n = some l ↔
      n = .expr l.toExpr ∧ ∃ type, l.type = some type ∧ IsSchemaType modules imports type := by
  obtain ⟨type?, elements⟩ := l
  unfold literalOfType Literal.toExpr
  split
  · next type elements' =>
      simp only [isQualified_iff, Option.ite_none_right_eq_some, Option.some.injEq,
        Literal.mk.injEq, Node.expr.injEq, Expr.composite.injEq]
      constructor
      · rintro ⟨htype, rfl, rfl⟩
        exact ⟨⟨rfl, rfl⟩, type, rfl, htype⟩
      · rintro ⟨⟨rfl, rfl⟩, _, h, htype⟩
        cases h
        exact ⟨htype, rfl, rfl⟩
  · next h =>
      simp only [reduceCtorEq, false_iff]
      rintro ⟨rfl, type, rfl, -⟩
      exact h _ _ rfl

theorem literalOfType_eq_none_iff {imports : ImportMap} {modules : Modules} {n : Node} :
    literalOfType imports modules n = none ↔
      ∀ type elements, n = .expr (.composite (some type) elements) →
        ¬ IsSchemaType modules imports type := by
  rw [Option.eq_none_iff_forall_ne_some]
  constructor
  · rintro h type elements rfl htype
    exact h ⟨some type, elements⟩ (literalOfType_eq_some_iff.2 ⟨rfl, type, rfl, htype⟩)
  · intro h l hl
    obtain ⟨hn, type, hl, htype⟩ := literalOfType_eq_some_iff.1 hl
    exact h type l.elements (by rw [hn, Literal.toExpr, hl]) htype

theorem builderLiteral_eq_some_iff {modules : Modules} {d : Decl} {l : Literal} :
    builderLiteral modules d = some l ↔ IsBuilderLiteral modules d l := by
  unfold builderLiteral IsBuilderLiteral
  simp only [search_eq, List.findSome?_eq_some_iff, literalOfType_eq_some_iff,
    literalOfType_eq_none_iff]
  constructor
  · rintro ⟨before, n, after, hnodes, ⟨rfl, htype⟩, hbefore⟩
    exact ⟨before, after, hnodes, htype, fun type elements h => hbefore _ h type elements rfl⟩
  · rintro ⟨before, after, hnodes, htype, hbefore⟩
    refine ⟨before, _, after, hnodes, ⟨rfl, htype⟩, ?_⟩
    rintro n hn type elements rfl
    exact hbefore type elements hn

theorem refers_iff {elements : List Expr} {b : String} :
    Refers elements b ↔ ∃ x ∈ elements, ∃ name value, elementParts x = .ok (name, value) ∧
      ((∃ fields, fieldSource value = .ok (.inline fields) ∧ FieldRefers fields b) ∨
        fieldSource value = .ok (.builder b)) := by
  constructor
  · intro h
    cases h with
    | call hx hu =>
        exact ⟨_, hx, _, _, elementParts_of_unquote hu _, .inr rfl⟩
    | nested hx hu hn hl =>
        exact ⟨_, hx, _, _, elementParts_of_unquote hu _, .inl ⟨_, rfl, _, hn, hl⟩⟩
  · rintro ⟨x, hx, name, value, hp, h⟩
    obtain ⟨raw, rfl, hu⟩ := elementParts_eq_ok_iff.1 hp
    rcases h with ⟨fields, hs, l, hn, hl⟩ | hs
    · obtain ⟨type, rfl⟩ := fieldSource_eq_inline_iff.1 hs
      exact .nested hx hu hn hl
    · obtain ⟨args, rfl⟩ := fieldSource_eq_builder_iff.1 hs
      exact .call hx hu

section Graph

variable (index : Index) (modules : Modules)

def IsFieldSchema (b : String) (l : Literal) : Prop :=
  ∃ d, index.schema? b = some d ∧ IsBuilderLiteral modules d l

def Edge (b c : String) : Prop :=
  ∃ l, IsFieldSchema index modules b l ∧ FieldRefers l.elements c

def Reaches (elements : List Expr) (c : String) : Prop :=
  ∃ b, Refers elements b ∧ Relation.ReflTransGen (Edge index modules) b c

def FieldReaches (fields : List Expr) (c : String) : Prop :=
  ∃ b, FieldRefers fields b ∧ Relation.ReflTransGen (Edge index modules) b c

def OnCycle (b : String) : Prop :=
  Relation.TransGen (Edge index modules) b b

end Graph

variable {index : Index} {modules : Modules}

theorem fieldReaches_iff {fields : List Expr} {c : String} :
    FieldReaches index modules fields c ↔
      ∃ l, nestedSchema fields = .ok (some l) ∧ Reaches index modules l.elements c := by
  constructor
  · rintro ⟨b, ⟨l, hn, hl⟩, hc⟩
    exact ⟨l, hn, b, hl, hc⟩
  · rintro ⟨l, hn, b, hl, hc⟩
    exact ⟨b, ⟨l, hn, hl⟩, hc⟩

theorem reaches_iff {elements : List Expr} {c : String} :
    Reaches index modules elements c ↔
      ∃ x ∈ elements, ∃ name value, elementParts x = .ok (name, value) ∧
        ((∃ fields, fieldSource value = .ok (.inline fields) ∧
            FieldReaches index modules fields c) ∨
          ∃ b, fieldSource value = .ok (.builder b) ∧
            Relation.ReflTransGen (Edge index modules) b c) := by
  constructor
  · rintro ⟨b, hb, hc⟩
    obtain ⟨x, hx, name, value, hp, ⟨fields, hs, hf⟩ | hs⟩ := refers_iff.1 hb
    · exact ⟨x, hx, name, value, hp, .inl ⟨fields, hs, b, hf, hc⟩⟩
    · exact ⟨x, hx, name, value, hp, .inr ⟨b, hs, hc⟩⟩
  · rintro ⟨x, hx, name, value, hp, ⟨fields, hs, b, hf, hc⟩ | ⟨b, hs, hc⟩⟩
    · exact ⟨b, refers_iff.2 ⟨x, hx, name, value, hp, .inl ⟨fields, hs, hf⟩⟩, hc⟩
    · exact ⟨b, refers_iff.2 ⟨x, hx, name, value, hp, .inr hs⟩, hc⟩

theorem reaches_iff_exists {elements : List Expr} {c : String} :
    Reaches index modules elements c ↔ ∃ x ∈ elements, Reaches index modules [x] c := by
  simp only [reaches_iff, List.mem_singleton, exists_eq_left]

theorem Reaches.mono {xs ys : List Expr} {c : String} (hsub : xs ⊆ ys)
    (h : Reaches index modules xs c) : Reaches index modules ys c := by
  obtain ⟨x, hx, hc⟩ := reaches_iff_exists.1 h
  exact reaches_iff_exists.2 ⟨x, hsub hx, hc⟩

theorem reaches_singleton_iff {x : Expr} {c : String} :
    Reaches index modules [x] c ↔ ∃ name value, elementParts x = .ok (name, value) ∧
      ((∃ fields, fieldSource value = .ok (.inline fields) ∧
          FieldReaches index modules fields c) ∨
        ∃ b, fieldSource value = .ok (.builder b) ∧
          Relation.ReflTransGen (Edge index modules) b c) := by
  simp only [reaches_iff, List.mem_singleton, exists_eq_left]

theorem edge_of_fieldRefers {b c : String} {d : Decl} {l : Literal}
    (hd : index.schema? b = some d) (hl : builderLiteral modules d = some l)
    (hc : FieldRefers l.elements c) : Edge index modules b c :=
  ⟨l, ⟨d, hd, builderLiteral_eq_some_iff.1 hl⟩, hc⟩

theorem exists_fieldRefers_of_edge {b c : String} (h : Edge index modules b c) :
    ∃ d l, index.schema? b = some d ∧ builderLiteral modules d = some l ∧
      FieldRefers l.elements c := by
  obtain ⟨l, ⟨d, hd, hl⟩, hc⟩ := h
  exact ⟨d, l, hd, builderLiteral_eq_some_iff.2 hl, hc⟩

theorem fieldRefers_of_edge {b c : String} {d : Decl} {l : Literal}
    (hd : index.schema? b = some d) (hl : builderLiteral modules d = some l)
    (h : Edge index modules b c) : FieldRefers l.elements c := by
  obtain ⟨d', l', hd', hl', hc⟩ := exists_fieldRefers_of_edge h
  obtain rfl : d = d' := Option.some.inj (hd.symm.trans hd')
  obtain rfl : l = l' := Option.some.inj (hl.symm.trans hl')
  exact hc

end ProviderManual.Schema
