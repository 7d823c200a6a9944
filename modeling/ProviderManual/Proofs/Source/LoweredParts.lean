import ProviderManual.Source.Lower
import ProviderManual.Source.Walk
import ProviderManual.Proofs.Source.NamedNodes

/-! What the lowering takes of a node's children, in the words of lists. -/

namespace ProviderManual.Source

def Tree.members (t : Tree) : List Tree :=
  if t.kind = .expressionList then bare t.children else [t]

def Tree.steps (t : Tree) : List Tree :=
  if t.kind = .statementList then bare t.children else [t]

section Bare

variable {t : Tree} {ts : List Tree}

theorem bare_cons_comment (h : t.kind = .comment) : bare (t :: ts) = bare ts := by
  simp [bare, h]

theorem bare_cons (h : t.kind ≠ .comment) : bare (t :: ts) = t :: bare ts := by
  simp [bare, h]

theorem filter_bare {role : Role} (hplain : ∀ t ∈ ts, t.kind = .comment → t.role = .plain)
    (hrole : role ≠ .plain) : (bare ts).filter (·.role = role) = ts.filter (·.role = role) := by
  rw [bare, List.filter_filter]
  refine List.filter_congr fun t ht => ?_
  by_cases hc : t.kind = .comment
  · simp [hplain t ht hc, hrole.symm]
  · simp [hc]

theorem find?_bare {role : Role} (hplain : ∀ t ∈ ts, t.kind = .comment → t.role = .plain)
    (hrole : role ≠ .plain) : (bare ts).find? (·.role = role) = ts.find? (·.role = role) := by
  rw [← List.head?_filter, ← List.head?_filter, filter_bare hplain hrole]

end Bare

section Parts

variable (role : Role) (ts : List Tree)

theorem exprsOf_eq : exprsOf ts = (bare ts).map Tree.toExpr := by
  induction ts with
  | nil => rfl
  | cons t ts ih => by_cases h : t.kind = .comment <;> simp [exprsOf, bare, h, ih]

theorem firstExpr_eq : firstExpr ts = (bare ts).head?.map Tree.toExpr := by
  induction ts with
  | nil => rfl
  | cons t ts ih => by_cases h : t.kind = .comment <;> simp [firstExpr, bare, h, ih]

theorem exprsAmong_eq :
    exprsAmong ts = ((bare ts).filter (!·.kind.isStatement)).map Tree.toExpr := by
  induction ts with
  | nil => rfl
  | cons t ts ih =>
      by_cases h : t.kind = .comment
      · simp [exprsAmong, bare_cons_comment h, h, ih]
      · by_cases hs : t.kind.isStatement <;> simp [exprsAmong, bare_cons h, h, hs, ih]

theorem stmtsAmong_eq :
    stmtsAmong ts = ((bare ts).filter (·.kind.isStatement)).map Tree.toStmt := by
  induction ts with
  | nil => rfl
  | cons t ts ih =>
      by_cases h : t.kind = .comment
      · simp [stmtsAmong, bare_cons_comment h, h, NodeKind.isStatement, ih]
      · by_cases hs : t.kind.isStatement <;> simp [stmtsAmong, bare_cons h, hs, ih]

theorem stmtsOf_eq : stmtsOf ts = (bare ts).map Tree.toStmt := by
  induction ts with
  | nil => rfl
  | cons t ts ih => by_cases h : t.kind = .comment <;> simp [stmtsOf, bare, h, ih]

theorem exprIn_eq : exprIn role ts = (ts.find? (·.role = role)).map Tree.toExpr := by
  induction ts with
  | nil => rfl
  | cons t ts ih => by_cases h : t.role = role <;> simp [exprIn, h, ih]

theorem allIn_eq : allIn role ts = (ts.filter (·.role = role)).map Tree.toExpr := by
  induction ts with
  | nil => rfl
  | cons t ts ih => by_cases h : t.role = role <;> simp [allIn, h, ih]

theorem partsIn_eq :
    partsIn role ts = (ts.find? (·.role = role)).elim [] fun t => exprsOf t.children := by
  induction ts with
  | nil => rfl
  | cons t ts ih =>
      obtain ⟨k, r, text, cs⟩ := t
      by_cases h : r = role <;> simp [partsIn, Tree.role, Tree.children, h, ih]

theorem blockIn_eq :
    blockIn role ts = (ts.find? (·.role = role)).elim [] fun t => blockOf t.children := by
  induction ts with
  | nil => rfl
  | cons t ts ih =>
      obtain ⟨k, r, text, cs⟩ := t
      by_cases h : r = role <;> simp [blockIn, Tree.role, Tree.children, h, ih]

theorem listIn_eq :
    listIn role ts =
      (ts.find? (·.role = role)).elim [] fun t => t.members.map Tree.toExpr := by
  induction ts with
  | nil => rfl
  | cons t ts ih =>
      obtain ⟨k, r, text, cs⟩ := t
      by_cases h : r = role
      · by_cases hk : k = .expressionList <;>
          simp [listIn, Tree.members, Tree.role, Tree.kind, Tree.children, h, hk, exprsOf_eq]
      · simp [listIn, Tree.role, h, ih]

theorem spread_eq : spread ts = ((bare ts).flatMap Tree.members).map Tree.toExpr := by
  induction ts with
  | nil => rfl
  | cons t ts ih =>
      obtain ⟨k, r, text, cs⟩ := t
      by_cases h : k = .comment
      · simp [spread, bare, Tree.kind, h, ih]
      · by_cases hk : k = .expressionList <;>
          simp [spread, bare, Tree.members, Tree.kind, Tree.children, h, hk, ih, exprsOf_eq]

theorem blockOf_eq : blockOf ts = ((bare ts).flatMap Tree.steps).map Tree.toStmt := by
  induction ts with
  | nil => rfl
  | cons t ts ih =>
      obtain ⟨k, r, text, cs⟩ := t
      by_cases h : k = .comment
      · simp [blockOf, bare, Tree.kind, h, ih]
      · by_cases hk : k = .statementList <;>
          simp [blockOf, bare, Tree.steps, Tree.kind, Tree.children, h, hk, ih, stmtsOf_eq]

end Parts

end ProviderManual.Source
