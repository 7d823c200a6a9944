import Mathlib.Data.List.Forall2
import ProviderManual.Proofs.Source.RenamedKeys
import ProviderManual.Source.Section

/-! Renaming the identifier that names are qualified with. -/

namespace ProviderManual.Source

open ProviderManual.Schema

section Renaming

variable (old new : String)

mutual

def Expr.renameQualifier : Expr → Expr
  | .ident name => .ident name
  | .basicLit kind value => .basicLit kind value
  | .selector x sel => .selector (x.renameQualifier.asKey old new) sel
  | .star x => .star x.renameQualifier
  | .unary op x => .unary op x.renameQualifier
  | .composite none elements => .composite none (renameQualifierExprs elements)
  | .composite (some type) elements =>
      .composite (some type.renameQualifier) (renameQualifierExprs elements)
  | .keyValue key value => .keyValue key.renameQualifier value.renameQualifier
  | .call callee args => .call callee.renameQualifier (renameQualifierExprs args)
  | .funcLit body => .funcLit (renameQualifierStmts body)
  | .other kind children => .other kind (renameQualifierExprs children)

def Stmt.renameQualifier : Stmt → Stmt
  | .expr x => .expr x.renameQualifier
  | .ret values => .ret (renameQualifierExprs values)
  | .assign lhs rhs => .assign (renameQualifierExprs lhs) (renameQualifierExprs rhs)
  | .block stmts => .block (renameQualifierStmts stmts)
  | .other kind exprs stmts => .other kind (renameQualifierExprs exprs) (renameQualifierStmts stmts)

def renameQualifierExprs : List Expr → List Expr
  | [] => []
  | x :: xs => x.renameQualifier :: renameQualifierExprs xs

def renameQualifierStmts : List Stmt → List Stmt
  | [] => []
  | x :: xs => x.renameQualifier :: renameQualifierStmts xs

end

def Literal.renameQualifier (l : Literal) : Literal where
  type := l.type.map (Expr.renameQualifier old new)
  elements := renameQualifierExprs old new l.elements

def Func.renameQualifier (f : Func) : Func :=
  { f with
    results := renameQualifierExprs old new f.results
    body := renameQualifierStmts old new f.body }

inductive NodeRenamed : Node → Node → Prop
  | expr (x : Expr) : NodeRenamed (.expr x) (.expr (x.renameQualifier old new))
  | stmt (x : Stmt) : NodeRenamed (.stmt x) (.stmt (x.renameQualifier old new))
  | operand : NodeRenamed (.expr (.ident old)) (.expr (.ident new))

end Renaming

variable {old new : String}

theorem renameQualifierExprs_eq (xs : List Expr) :
    renameQualifierExprs old new xs = xs.map (Expr.renameQualifier old new) := by
  induction xs with
  | nil => rfl
  | cons x xs ih => rw [renameQualifierExprs, ih, List.map_cons]

theorem Expr.renameQualifier_composite (type : Option Expr) (elements : List Expr) :
    (Expr.composite type elements).renameQualifier old new =
      .composite (type.map (Expr.renameQualifier old new)) (renameQualifierExprs old new elements) := by
  cases type <;> rw [Expr.renameQualifier] <;> rfl

theorem Expr.asKey_self (name : String) (x : Expr) : x.asKey name name = x := by
  cases x with
  | ident other =>
      rw [Expr.asKey]
      split
      · next h => rw [h]
      · rfl
  | _ => rfl

mutual

theorem Expr.renameQualifier_self (name : String) : ∀ x : Expr, x.renameQualifier name name = x
  | .ident _ | .basicLit _ _ => rfl
  | .selector x sel => by rw [Expr.renameQualifier, x.renameQualifier_self, Expr.asKey_self]
  | .star x | .unary _ x => by rw [Expr.renameQualifier, x.renameQualifier_self]
  | .composite none elements => by rw [Expr.renameQualifier, renameQualifierExprs_self]
  | .composite (some type) elements => by
      rw [Expr.renameQualifier, type.renameQualifier_self, renameQualifierExprs_self]
  | .keyValue key value => by
      rw [Expr.renameQualifier, key.renameQualifier_self, value.renameQualifier_self]
  | .call callee args => by
      rw [Expr.renameQualifier, callee.renameQualifier_self, renameQualifierExprs_self]
  | .funcLit body => by rw [Expr.renameQualifier, renameQualifierStmts_self]
  | .other _ children => by rw [Expr.renameQualifier, renameQualifierExprs_self]

theorem Stmt.renameQualifier_self (name : String) : ∀ x : Stmt, x.renameQualifier name name = x
  | .expr x => by rw [Stmt.renameQualifier, x.renameQualifier_self]
  | .ret values => by rw [Stmt.renameQualifier, renameQualifierExprs_self]
  | .assign lhs rhs => by
      rw [Stmt.renameQualifier, renameQualifierExprs_self, renameQualifierExprs_self]
  | .block stmts => by rw [Stmt.renameQualifier, renameQualifierStmts_self]
  | .other _ exprs stmts => by
      rw [Stmt.renameQualifier, renameQualifierExprs_self, renameQualifierStmts_self]

theorem renameQualifierExprs_self (name : String) :
    ∀ xs : List Expr, renameQualifierExprs name name xs = xs
  | [] => rfl
  | x :: xs => by rw [renameQualifierExprs, x.renameQualifier_self, renameQualifierExprs_self]

theorem renameQualifierStmts_self (name : String) :
    ∀ xs : List Stmt, renameQualifierStmts name name xs = xs
  | [] => rfl
  | x :: xs => by rw [renameQualifierStmts, x.renameQualifier_self, renameQualifierStmts_self]

end

theorem Func.renameQualifier_self (name : String) (f : Func) : f.renameQualifier name name = f := by
  rw [Func.renameQualifier, renameQualifierExprs_self, renameQualifierStmts_self]

abbrev ListingRenamed (old new : String) (xs ys : List Node) : Prop :=
  List.Forall₂ (NodeRenamed old new) xs ys

theorem ListingRenamed.append {xs ys xs' ys' : List Node} (h : ListingRenamed old new xs ys)
    (h' : ListingRenamed old new xs' ys') : ListingRenamed old new (xs ++ xs') (ys ++ ys') :=
  List.rel_append h h'

theorem ListingRenamed.asKey {x : Expr}
    (h : ListingRenamed old new x.nodes (x.renameQualifier old new).nodes) :
    ListingRenamed old new x.nodes ((x.renameQualifier old new).asKey old new).nodes := by
  cases x with
  | ident name =>
      by_cases hname : name = old
      · subst hname
        rw [Expr.renameQualifier, Expr.asKey, if_pos rfl]
        exact .cons .operand .nil
      · rwa [Expr.renameQualifier, Expr.asKey, if_neg hname]
  | composite type elements => cases type <;> exact h
  | _ => exact h

mutual

theorem Expr.listing_renameQualifier : ∀ x : Expr,
    ListingRenamed old new x.nodes (x.renameQualifier old new).nodes
  | .ident _ => .cons (.expr _) .nil
  | .basicLit _ _ => .cons (.expr _) .nil
  | .selector x _ => .cons (.expr _) x.listing_renameQualifier.asKey
  | .star x => .cons (.expr _) x.listing_renameQualifier
  | .unary _ x => .cons (.expr _) x.listing_renameQualifier
  | .composite none elements => .cons (.expr _) (exprs_listing_renameQualifier elements)
  | .composite (some type) elements =>
      .cons (.expr _) (type.listing_renameQualifier.append (exprs_listing_renameQualifier elements))
  | .keyValue key value =>
      .cons (.expr _) (key.listing_renameQualifier.append value.listing_renameQualifier)
  | .call callee args =>
      .cons (.expr _) (callee.listing_renameQualifier.append (exprs_listing_renameQualifier args))
  | .funcLit body => .cons (.expr _) (stmts_listing_renameQualifier body)
  | .other _ children => .cons (.expr _) (exprs_listing_renameQualifier children)

theorem Stmt.listing_renameQualifier : ∀ x : Stmt,
    ListingRenamed old new x.nodes (x.renameQualifier old new).nodes
  | .expr x => .cons (.stmt _) x.listing_renameQualifier
  | .ret values => .cons (.stmt _) (exprs_listing_renameQualifier values)
  | .assign lhs rhs =>
      .cons (.stmt _)
        ((exprs_listing_renameQualifier lhs).append (exprs_listing_renameQualifier rhs))
  | .block stmts => .cons (.stmt _) (stmts_listing_renameQualifier stmts)
  | .other _ exprs stmts =>
      .cons (.stmt _)
        ((exprs_listing_renameQualifier exprs).append (stmts_listing_renameQualifier stmts))

theorem exprs_listing_renameQualifier : ∀ xs : List Expr,
    ListingRenamed old new (exprNodes xs) (exprNodes (renameQualifierExprs old new xs))
  | [] => .nil
  | x :: xs => x.listing_renameQualifier.append (exprs_listing_renameQualifier xs)

theorem stmts_listing_renameQualifier : ∀ xs : List Stmt,
    ListingRenamed old new (stmtNodes xs) (stmtNodes (renameQualifierStmts old new xs))
  | [] => .nil
  | x :: xs => x.listing_renameQualifier.append (stmts_listing_renameQualifier xs)

end

theorem Func.listing_renameQualifier (f : Func) :
    ListingRenamed old new f.nodes (f.renameQualifier old new).nodes := by
  rw [Func.nodes_eq, Func.nodes_eq]
  exact stmts_listing_renameQualifier f.body

section Corresponding

variable {α β γ δ : Type} {R : α → β → Prop} {xs : List α} {ys : List β}

theorem rel_map_iff {f : α → β} {o : Option α} {o' : Option β} :
    Option.Rel (fun x y => y = f x) o o' ↔ o' = o.map f := by
  constructor
  · rintro (rfl | _) <;> rfl
  · rintro rfl
    cases o with
    | none => exact .none
    | some x => exact .some rfl

theorem findSome?_corresponding {S : γ → δ → Prop} {find : α → Option γ} {find' : β → Option δ}
    (h : List.Forall₂ R xs ys) (hfind : ∀ x y, R x y → Option.Rel S (find x) (find' y)) :
    Option.Rel S (xs.findSome? find) (ys.findSome? find') := by
  induction h with
  | nil => exact .none
  | @cons x y xs ys hxy _ ih =>
      have hfound := hfind x y hxy
      rw [List.findSome?_cons, List.findSome?_cons]
      generalize find x = o at hfound ⊢
      generalize find' y = o' at hfound ⊢
      cases hfound with
      | none => exact ih
      | some hfound => exact .some hfound

theorem findIdx?_corresponding {p : α → Bool} {q : β → Bool} (h : List.Forall₂ R xs ys)
    (hpq : ∀ x y, R x y → q y = p x) : ys.findIdx? q = xs.findIdx? p := by
  induction h with
  | nil => rfl
  | cons hxy _ ih => rw [List.findIdx?_cons, List.findIdx?_cons, hpq _ _ hxy, ih]

end Corresponding

end ProviderManual.Source
