import ProviderManual.Proofs.Schema.Cycles
import ProviderManual.Proofs.Schema.Footprint

/-! A builder's field schema written in place of a call to it. -/

namespace ProviderManual.Schema

open ProviderManual.Source ProviderManual.Manual

variable {index : Index} {modules : Modules}

theorem elementParts_keyValue (key : Expr) :
    (∃ name, ∀ value, elementParts (.keyValue key value) = .ok (name, value)) ∨
      ∃ e, ∀ value, elementParts (.keyValue key value) = .error e := by
  by_cases h : ∃ raw, key = .basicLit .string raw
  · obtain ⟨raw, rfl⟩ := h
    cases hu : unquote raw with
    | ok name => exact .inl ⟨name, elementParts_of_unquote hu⟩
    | error e => exact .inr ⟨_, fun value => by rw [elementParts, hu]; rfl⟩
  · refine .inr ⟨.shape .stringKey key, fun value => ?_⟩
    unfold elementParts
    split
    · next raw v heq =>
        cases heq
        exact absurd ⟨raw, rfl⟩ h
    · next heq => cases heq; rfl
    · next hne => exact absurd rfl (hne key value)

theorem resolveElement_inline_eq {b : String} {l : Literal}
    (hl : IsFieldSchema index modules b l)
    (hb : ¬ FieldReaches index modules l.elements b) (path : Path) (key : Expr)
    (args : List Expr) :
    resolveElement index modules [] path (.keyValue key l.toExpr) =
      resolveElement index modules [] path (.keyValue key (.call (.ident b) args)) := by
  obtain ⟨d, hd, hl⟩ := hl
  rw [resolveElement_eq, resolveElement_eq]
  rcases elementParts_keyValue key with ⟨name, hp⟩ | ⟨e, hp⟩
  · have hfields : buildAttribute index modules [] (path ++ [name]) name l.elements =
        buildAttribute index modules [b] (path ++ [name]) name l.elements := by
      refine resolves_congr.2.2.2 [] _ name l.elements [b] fun c hc => ⟨rfl, ?_⟩
      have hne : c ≠ b := fun h => hb (h ▸ hc)
      simp [hne]
    have hcall : resolveBuilder index modules [] (path ++ [name]) name b =
        buildAttribute index modules [b] (path ++ [name]) name l.elements := by
      rw [resolveBuilder_eq, hd]
      simp [builderLiteral_eq_some_iff.2 hl]
    rw [hp, hp]
    exact hfields.trans hcall.symm
  · rw [hp, hp]

theorem onCycle_of_fieldReaches {b : String} {l : Literal}
    (hl : IsFieldSchema index modules b l)
    (hb : FieldReaches index modules l.elements b) : OnCycle index modules b := by
  obtain ⟨c, hc, hreach⟩ := hb
  exact .head' ⟨l, hl, hc⟩ hreach

theorem resolveElement_error_of_onCycle {b : String} (hb : OnCycle index modules b) {key value : Expr}
    (hvalue : ∀ name, elementParts (.keyValue key value) = .ok (name, value) →
      Reaches index modules [.keyValue key value] b) (path : Path) :
    ∃ es, resolveElement index modules [] path (.keyValue key value) = .error es := by
  rcases elementParts_keyValue key with ⟨name, hp⟩ | ⟨e, hp⟩
  · exact ((reportsCycle_of_reaches hb).2.1 [] path _ (hvalue name (hp value))).isError
  · rw [resolveElement_eq, hp]
    exact ⟨_, rfl⟩

theorem resolveAttributes_error_of_mem {s : List String} {path : Path} {elements : List Expr}
    {x : Expr} (hx : x ∈ elements)
    (h : ∃ es, resolveElement index modules s path x = .error es) :
    ∃ es, resolveAttributes index modules s path elements = .error es :=
  exists_resolveAttributes_eq_error_iff.2 ⟨x, hx, h⟩

def schemaType : Expr :=
  .selector (.ident "schema") "Schema"

def blockOf (b : String) : Literal where
  type := some schemaType
  elements := [.keyValue (.ident "Elem") (.unary "&" (.composite none
    [.keyValue (.ident "Schema") (.composite none
      [.keyValue (.basicLit .string "\x60child\x60") (.call (.ident b) [])])]))]

def builderOf (name : String) (l : Literal) : Decl where
  func :=
    { name := name, doc := "", line := 1, results := [.star schemaType]
      body := [.ret [.unary "&" l.toExpr]] }
  imports := Text.Table.empty.insert "schema" Modules.standard.schema
  file := "schemas.go"

def blocksIndex : Index where
  resources := .empty
  schemas := ((Text.Table.empty.insert "disk" (builderOf "disk" (blockOf "size"))).insert "node"
    (builderOf "node" (blockOf "node"))).insert "size" (builderOf "size" ⟨some schemaType, []⟩)
  provider := none

theorem fieldRefers_blockOf_iff (b c : String) : FieldRefers (blockOf b).elements c ↔ c = b := by
  have hn : nestedSchema (blockOf b).elements = .ok (some ⟨none,
      [.keyValue (.basicLit .string "\x60child\x60") (.call (.ident b) [])]⟩) := rfl
  constructor
  · rintro ⟨l, hl, hc⟩
    rw [hn] at hl
    cases hl
    obtain ⟨x, hx, name, value, hp, h⟩ := refers_iff.1 hc
    obtain rfl := List.mem_singleton.1 hx
    obtain ⟨raw, hraw, -⟩ := elementParts_eq_ok_iff.1 hp
    cases hraw
    rcases h with ⟨fields, hs, -⟩ | hs
    · cases hs
    · cases hs
      rfl
  · rintro rfl
    have hu : unquote "\x60child\x60" = .ok "child" := rfl
    exact ⟨_, hn, .call List.mem_cons_self hu⟩

theorem not_edge_size (c : String) : ¬ Edge blocksIndex .standard "size" c := by
  intro h
  obtain ⟨l, hn, -⟩ := fieldRefers_of_edge (d := builderOf "size" ⟨some schemaType, []⟩) rfl rfl h
  cases hn

/-- Writing a builder's field schema in place of a call to the builder gives the same outcome, or
two failures if the field schema leads back to the builder. -/
theorem inline_builder_call (index : Index) (modules : Modules) (path : Path)
    (before after args : List Expr) (key : Expr) (b : String) (l : Literal)
    (hl : IsFieldSchema index modules b l) :
    (¬ FieldReaches index modules l.elements b →
      resolveAt index modules path (before ++ .keyValue key l.toExpr :: after) =
        resolveAt index modules path
          (before ++ .keyValue key (.call (.ident b) args) :: after)) ∧
    (FieldReaches index modules l.elements b →
      (∃ es, resolveAt index modules path (before ++ .keyValue key l.toExpr :: after) =
        .error es) ∧
      ∃ es, resolveAt index modules path
        (before ++ .keyValue key (.call (.ident b) args) :: after) = .error es) := by
  simp only [resolveAt_eq]
  constructor
  · intro hb
    rw [resolveAttributes_eq, resolveAttributes_eq, List.map_append, List.map_append,
      List.map_cons, List.map_cons, resolveElement_inline_eq hl hb path key args]
  · intro hb
    have hcycle := onCycle_of_fieldReaches hl hb
    constructor
    · refine resolveAttributes_error_of_mem (List.mem_append_cons_self) ?_
      refine resolveElement_error_of_onCycle hcycle (fun name hp => ?_) path
      exact reaches_singleton_iff.2 ⟨name, _, hp, .inl ⟨l.elements, rfl, hb⟩⟩
    · refine resolveAttributes_error_of_mem (List.mem_append_cons_self) ?_
      refine resolveElement_error_of_onCycle hcycle (fun name hp => ?_) path
      exact reaches_singleton_iff.2 ⟨name, _, hp, .inr ⟨b, rfl, .refl⟩⟩

theorem inline_disk_and_node :
    resolveAt blocksIndex .standard []
        [.keyValue (.basicLit .string "\x60a\x60") (blockOf "size").toExpr] =
      resolveAt blocksIndex .standard []
        [.keyValue (.basicLit .string "\x60a\x60") (.call (.ident "disk") [])] ∧
    (∃ es, resolveAt blocksIndex .standard []
      [.keyValue (.basicLit .string "\x60a\x60") (blockOf "node").toExpr] = .error es) ∧
    ∃ es, resolveAt blocksIndex .standard []
      [.keyValue (.basicLit .string "\x60a\x60") (.call (.ident "node") [])] = .error es := by
  constructor
  · refine (inline_builder_call blocksIndex .standard [] [] [] [] (.basicLit .string "\x60a\x60")
      "disk" (blockOf "size") ⟨_, rfl, builderLiteral_eq_some_iff.1 rfl⟩).1 ?_
    rintro ⟨b, hb, hreach⟩
    obtain rfl := (fieldRefers_blockOf_iff "size" b).1 hb
    rcases Relation.ReflTransGen.cases_head hreach with h | ⟨c, hedge, -⟩
    · exact absurd h (by decide)
    · exact not_edge_size c hedge
  · exact (inline_builder_call blocksIndex .standard [] [] [] [] (.basicLit .string "\x60a\x60")
      "node" (blockOf "node") ⟨_, rfl, builderLiteral_eq_some_iff.1 rfl⟩).2 ⟨"node", (fieldRefers_blockOf_iff "node" "node").2 rfl, .refl⟩

end ProviderManual.Schema
