import ProviderManual.Proofs.Source.LoweredParts

/-! The literals that a search is after, in a walk and in the concrete tree. -/

namespace ProviderManual.Source

inductive Family where
  | keyValue
  | call
  | composite
  deriving DecidableEq, Repr

def Node.family? : Node → Option Family
  | .expr (.keyValue _ _) => some .keyValue
  | .expr (.call _ _) => some .call
  | .expr (.composite _ _) => some .composite
  | _ => none

def Tree.family? (t : Tree) : Option Family :=
  match t.kind with
  | .keyedElement => some .keyValue
  | .callExpression => some .call
  | .compositeLiteral => some .composite
  | .literalValue => if t.role = .body then none else some .composite
  | _ => none

/-- The parts that the lowering leaves out: the type of a variable, the signature of a function literal
and the type arguments of a call. -/
def hides : NodeKind → Role → Bool
  | .varSpec, .type => true
  | .funcLiteral, .parameters => true
  | .funcLiteral, .result => true
  | .callExpression, .typeArguments => true
  | _, _ => false

mutual

/-- A node and all below it that no left out part holds, parents first. -/
def Tree.reached : Tree → List Tree
  | .node kind role text children =>
      .node kind role text children :: reachedAmong kind children

def reachedAmong : NodeKind → List Tree → List Tree
  | _, [] => []
  | parent, t :: ts =>
      if hides parent t.role then reachedAmong parent ts
      else t.reached ++ reachedAmong parent ts

end

namespace NodeKind

def isEntry : NodeKind → Bool
  | .fieldDeclaration | .parameterDeclaration | .variadicParameterDeclaration
  | .typeParameterDeclaration => true
  | _ => false

def isStep (k : NodeKind) : Bool :=
  k.isStatement && !k.isEntry

def isTerm (k : NodeKind) : Bool :=
  !k.isStep && k ≠ .literalValue

theorem isTerm_of_mem_terms {k : NodeKind} (h : k ∈ terms) : k.isTerm = true := by
  revert k
  decide

theorem isStep_of_mem_bodies {k : NodeKind} (h : k ∈ bodies) : k.isStep = true := by
  revert k
  decide

theorem isStatement_eq_of_mem_childKinds {k : NodeKind} (hk : k.isStep = true) :
    ∀ k' ∈ k.childKinds, k'.isStatement = k'.isStep ∧ k' ≠ .literalValue := by
  revert hk
  cases k <;> decide

theorem hides_eq_false {k : NodeKind} (hspec : k ≠ .varSpec) (hlit : k ≠ .funcLiteral)
    (hcall : k ≠ .callExpression) (r : Role) : hides k r = false := by
  cases k <;> first | rfl | contradiction

end NodeKind

theorem Tree.family?_of_isStep {kind : NodeKind} {role : Role} {text : String} {cs : List Tree}
    (h : kind.isStep = true) : (node kind role text cs).family? = none := by
  cases kind <;> first | rfl | exact absurd h (by decide)

def SameLiterals (ns ns' : List Node) : Prop :=
  ∀ family, (ns.filter (·.family? = some family)).Perm (ns'.filter (·.family? = some family))

namespace SameLiterals

variable {ns ns' ms ms' : List Node} {n : Node}

theorem refl (ns : List Node) : SameLiterals ns ns :=
  fun _ => .refl _

theorem symm (h : SameLiterals ns ns') : SameLiterals ns' ns :=
  fun family => (h family).symm

theorem trans {ns'' : List Node} (h : SameLiterals ns ns') (h' : SameLiterals ns' ns'') :
    SameLiterals ns ns'' :=
  fun family => (h family).trans (h' family)

theorem of_perm (h : ns.Perm ns') : SameLiterals ns ns' :=
  fun _ => h.filter _

theorem append (h : SameLiterals ns ns') (h' : SameLiterals ms ms') :
    SameLiterals (ns ++ ms) (ns' ++ ms') := by
  intro family
  rw [List.filter_append, List.filter_append]
  exact (h family).append (h' family)

theorem cons (h : SameLiterals ns ns') : SameLiterals (n :: ns) (n :: ns') :=
  append (refl [n]) h

theorem drop (hn : n.family? = none) (h : SameLiterals ns ns') : SameLiterals (n :: ns) ns' := by
  intro family
  rw [List.filter_cons_of_neg (by simp [hn])]
  exact h family

theorem append_nothing (h : SameLiterals ms []) : SameLiterals ns (ns ++ ms) :=
  trans (of_perm (by rw [List.append_nil])) (append (refl ns) (symm h))

theorem flatMap {f g : Tree → List Node} {ts : List Tree}
    (h : ∀ t ∈ ts, SameLiterals (f t) (g t)) : SameLiterals (ts.flatMap f) (ts.flatMap g) := by
  induction ts with
  | nil => exact refl []
  | cons t ts ih =>
      rw [List.flatMap_cons, List.flatMap_cons]
      exact append (h t List.mem_cons_self) (ih fun u hu => h u (List.mem_cons_of_mem t hu))

end SameLiterals

/-- What a node gives to a walk: its expression or statement with all below. The braces of a composite
literal give what their elements do. -/
def Tree.given (t : Tree) : List Node :=
  if t.kind.isStep then t.toStmt.nodes
  else if t.kind = .literalValue ∧ t.role = .body then exprNodes (exprsOf t.children)
  else t.toExpr.nodes

def shown (parent : NodeKind) (ts : List Tree) : List Tree :=
  (bare ts).filter (!hides parent ·.role)

def Tree.own (t : Tree) : List Node :=
  if t.family? = none then [] else [.expr t.toExpr]

structure Tree.Splits (t : Tree) : Prop where
  family : t.family? ≠ none → (Node.expr t.toExpr).family? = t.family?
  given : SameLiterals t.given (t.own ++ (shown t.kind t.children).flatMap Tree.given)

namespace Tree.Splits

variable {kind : NodeKind} {role : Role} {text : String} {cs : List Tree}

theorem of_none (h : (node kind role text cs).family? = none)
    (hs : SameLiterals (node kind role text cs).given ((shown kind cs).flatMap Tree.given)) :
    (node kind role text cs).Splits where
  family hne := absurd h hne
  given := by
    rw [own, if_pos h]
    exact hs

theorem of_some {family : Family} (h : (node kind role text cs).family? = some family)
    (hx : (Node.expr (node kind role text cs).toExpr).family? = some family)
    (hs : SameLiterals (node kind role text cs).given
      (.expr (node kind role text cs).toExpr :: (shown kind cs).flatMap Tree.given)) :
    (node kind role text cs).Splits where
  family _ := hx.trans h.symm
  given := by
    rw [own, if_neg (by simp [h])]
    exact hs

end Tree.Splits

section Given

variable {t : Tree} {ts : List Tree}

theorem given_of_isTerm (h : t.kind.isTerm = true) : t.given = t.toExpr.nodes := by
  simp only [NodeKind.isTerm, Bool.and_eq_true, Bool.not_eq_true', decide_eq_true_eq] at h
  simp [Tree.given, h]

theorem given_of_isStep (h : t.kind.isStep = true) : t.given = t.toStmt.nodes :=
  if_pos h

theorem exprNodes_map (h : ∀ t ∈ ts, t.kind.isTerm = true) :
    exprNodes (ts.map Tree.toExpr) = ts.flatMap Tree.given := by
  induction ts with
  | nil => rfl
  | cons t ts ih =>
      rw [List.map_cons, exprNodes, List.flatMap_cons, given_of_isTerm (h t List.mem_cons_self),
        ih fun u hu => h u (List.mem_cons_of_mem t hu)]

theorem stmtNodes_map (h : ∀ t ∈ ts, t.kind.isStep = true) :
    stmtNodes (ts.map Tree.toStmt) = ts.flatMap Tree.given := by
  induction ts with
  | nil => rfl
  | cons t ts ih =>
      rw [List.map_cons, stmtNodes, List.flatMap_cons, given_of_isStep (h t List.mem_cons_self),
        ih fun u hu => h u (List.mem_cons_of_mem t hu)]

theorem shown_eq {parent : NodeKind} (h : ∀ role, hides parent role = false) :
    shown parent ts = bare ts := by
  simp [shown, h]

end Given

end ProviderManual.Source
