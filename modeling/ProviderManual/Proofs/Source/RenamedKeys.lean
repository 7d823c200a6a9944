import ProviderManual.Schema.Registry
import ProviderManual.Source.Section

/-! Renaming the identifier that pairs are keyed by. -/

namespace ProviderManual.Source

open ProviderManual.Schema

variable (old new : String)

def Expr.asKey : Expr → Expr
  | .ident name => .ident (if name = old then new else name)
  | key => key

mutual

def Expr.renameKey : Expr → Expr
  | .ident name => .ident name
  | .basicLit kind value => .basicLit kind value
  | .selector x sel => .selector x.renameKey sel
  | .star x => .star x.renameKey
  | .unary op x => .unary op x.renameKey
  | .composite none elements => .composite none (renameKeyExprs elements)
  | .composite (some type) elements => .composite (some type.renameKey) (renameKeyExprs elements)
  | .keyValue key value => .keyValue (key.renameKey.asKey old new) value.renameKey
  | .call callee args => .call callee.renameKey (renameKeyExprs args)
  | .funcLit body => .funcLit (renameKeyStmts body)
  | .other kind children => .other kind (renameKeyExprs children)

def Stmt.renameKey : Stmt → Stmt
  | .expr x => .expr x.renameKey
  | .ret values => .ret (renameKeyExprs values)
  | .assign lhs rhs => .assign (renameKeyExprs lhs) (renameKeyExprs rhs)
  | .block stmts => .block (renameKeyStmts stmts)
  | .other kind exprs stmts => .other kind (renameKeyExprs exprs) (renameKeyStmts stmts)

def renameKeyExprs : List Expr → List Expr
  | [] => []
  | x :: xs => x.renameKey :: renameKeyExprs xs

def renameKeyStmts : List Stmt → List Stmt
  | [] => []
  | x :: xs => x.renameKey :: renameKeyStmts xs

end

def Func.renameKey (f : Func) : Func :=
  { f with body := renameKeyStmts old new f.body }

def Func.nodes (f : Func) : List Node :=
  f.roots.flatMap Node.nodes

theorem Func.nodes_eq (f : Func) : f.nodes = stmtNodes f.body := by
  rw [Func.nodes, Func.roots, stmtNodes_eq]

def assignedValues (field : String) (nodes : List Node) : List Expr :=
  nodes.filterMap (assigned field)

def renamedValue (field : String) (value : Expr) : Option Expr :=
  if field = old then none else some (value.renameKey old new)

variable {old new} {field : String}

@[simp] theorem assignedValues_nil : assignedValues field [] = [] := rfl

@[simp] theorem assignedValues_append (xs ys : List Node) :
    assignedValues field (xs ++ ys) = assignedValues field xs ++ assignedValues field ys :=
  List.filterMap_append

theorem assignedValues_cons (n : Node) (ns : List Node) :
    assignedValues field (n :: ns) = (assigned field n).toList ++ assignedValues field ns := by
  cases h : assigned field n <;> simp [assignedValues, h]

theorem assignedValues_eq_nil_iff {nodes : List Node} :
    assignedValues field nodes = [] ↔ ∀ n ∈ nodes, assigned field n = none :=
  List.filterMap_eq_nil_iff

theorem assigned_keyValue_ident (name : String) (value : Expr) :
    assigned field (.expr (.keyValue (.ident name) value)) =
      if name = field then some value else none := rfl

theorem assigned_renameKey (hnew : new ≠ field) (key value : Expr) :
    assigned field (.expr ((Expr.keyValue key value).renameKey old new)) =
      (assigned field (.expr (.keyValue key value))).bind (renamedValue old new field) := by
  cases key with
  | ident name =>
      simp only [Expr.renameKey, Expr.asKey, assigned_keyValue_ident]
      by_cases hold : name = old
      · rw [if_pos hold, if_neg hnew]
        by_cases hfield : name = field
        · rw [if_pos hfield]
          exact (if_pos (hfield ▸ hold)).symm
        · rw [if_neg hfield]
          rfl
      · rw [if_neg hold]
        by_cases hfield : name = field
        · rw [if_pos hfield, if_pos hfield]
          exact (if_neg (hfield ▸ hold)).symm
        · rw [if_neg hfield, if_neg hfield]
          rfl
  | composite type elements => cases type <;> rfl
  | _ => rfl

def ValuesRenamed (old new field : String) (xs ys : List Node) : Prop :=
  assignedValues field ys = (assignedValues field xs).filterMap (renamedValue old new field)

theorem ValuesRenamed.append {xs ys xs' ys' : List Node} (h : ValuesRenamed old new field xs ys)
    (h' : ValuesRenamed old new field xs' ys') :
    ValuesRenamed old new field (xs ++ xs') (ys ++ ys') := by
  unfold ValuesRenamed at *
  rw [assignedValues_append, assignedValues_append, List.filterMap_append, h, h']

theorem ValuesRenamed.pair {xs ys : List Node} (hnew : new ≠ field) (key value : Expr)
    (h : ValuesRenamed old new field xs ys) :
    ValuesRenamed old new field (.expr (.keyValue key value) :: xs)
      (.expr ((Expr.keyValue key value).renameKey old new) :: ys) := by
  unfold ValuesRenamed at *
  rw [assignedValues_cons, assignedValues_cons, List.filterMap_append, h,
    assigned_renameKey hnew]
  cases assigned field (.expr (.keyValue key value)) with
  | none => rfl
  | some v => cases hv : renamedValue old new field v <;> simp [hv]

theorem ValuesRenamed.asKey {xs : List Node} {key : Expr}
    (h : ValuesRenamed old new field xs key.nodes) :
    ValuesRenamed old new field xs (key.asKey old new).nodes := by
  unfold ValuesRenamed at *
  rw [← h]
  cases key <;> rfl

mutual

theorem Expr.values_renameKey (hnew : new ≠ field) : ∀ x : Expr,
    ValuesRenamed old new field x.nodes (x.renameKey old new).nodes
  | .ident _ => rfl
  | .basicLit _ _ => rfl
  | .selector x _ => x.values_renameKey hnew
  | .star x => x.values_renameKey hnew
  | .unary _ x => x.values_renameKey hnew
  | .composite none elements => exprs_values_renameKey hnew elements
  | .composite (some type) elements =>
      (type.values_renameKey hnew).append (exprs_values_renameKey hnew elements)
  | .keyValue key value =>
      .pair hnew key value ((key.values_renameKey hnew).asKey.append (value.values_renameKey hnew))
  | .call callee args =>
      (callee.values_renameKey hnew).append (exprs_values_renameKey hnew args)
  | .funcLit body => stmts_values_renameKey hnew body
  | .other _ children => exprs_values_renameKey hnew children

theorem Stmt.values_renameKey (hnew : new ≠ field) : ∀ x : Stmt,
    ValuesRenamed old new field x.nodes (x.renameKey old new).nodes
  | .expr x => x.values_renameKey hnew
  | .ret values => exprs_values_renameKey hnew values
  | .assign lhs rhs =>
      (exprs_values_renameKey hnew lhs).append (exprs_values_renameKey hnew rhs)
  | .block stmts => stmts_values_renameKey hnew stmts
  | .other _ exprs stmts =>
      (exprs_values_renameKey hnew exprs).append (stmts_values_renameKey hnew stmts)

theorem exprs_values_renameKey (hnew : new ≠ field) : ∀ xs : List Expr,
    ValuesRenamed old new field (exprNodes xs) (exprNodes (renameKeyExprs old new xs))
  | [] => rfl
  | x :: xs => (x.values_renameKey hnew).append (exprs_values_renameKey hnew xs)

theorem stmts_values_renameKey (hnew : new ≠ field) : ∀ xs : List Stmt,
    ValuesRenamed old new field (stmtNodes xs) (stmtNodes (renameKeyStmts old new xs))
  | [] => rfl
  | x :: xs => (x.values_renameKey hnew).append (stmts_values_renameKey hnew xs)

end

theorem Func.assignedValues_renameKey (hnew : new ≠ field) (hold : old ≠ field) (f : Func) :
    assignedValues field (f.renameKey old new).nodes =
      (assignedValues field f.nodes).map (Expr.renameKey old new) := by
  have hvalue : renamedValue old new field = some ∘ Expr.renameKey old new :=
    funext fun value => if_neg hold.symm
  rw [Func.nodes_eq, Func.nodes_eq, ← List.filterMap_eq_map, ← hvalue]
  exact stmts_values_renameKey hnew f.body

theorem Func.assignedValues_renameKey_old (hnew : new ≠ old) (f : Func) :
    assignedValues old (f.renameKey old new).nodes = [] := by
  have hvalues : ValuesRenamed old new old (stmtNodes f.body)
      (stmtNodes (renameKeyStmts old new f.body)) := stmts_values_renameKey hnew f.body
  rw [Func.nodes_eq]
  refine hvalues.trans (List.filterMap_eq_nil_iff.2 fun value _ => ?_)
  exact if_pos rfl

mutual

theorem Expr.renameKey_eq_self : ∀ x : Expr, (∀ n ∈ x.nodes, assigned old n = none) →
    x.renameKey old new = x
  | .ident _, _ => rfl
  | .basicLit _ _, _ => rfl
  | .selector x sel, h => by
      rw [Expr.renameKey, x.renameKey_eq_self fun n hn => h n (List.mem_cons_of_mem _ hn)]
  | .star x, h => by
      rw [Expr.renameKey, x.renameKey_eq_self fun n hn => h n (List.mem_cons_of_mem _ hn)]
  | .unary op x, h => by
      rw [Expr.renameKey, x.renameKey_eq_self fun n hn => h n (List.mem_cons_of_mem _ hn)]
  | .composite none elements, h => by
      rw [Expr.renameKey, exprs_renameKey_eq_self elements fun n hn => h n (List.mem_cons_of_mem _ hn)]
  | .composite (some type) elements, h => by
      simp only [Expr.nodes, List.forall_mem_cons, List.forall_mem_append] at h
      rw [Expr.renameKey, type.renameKey_eq_self h.2.1, exprs_renameKey_eq_self elements h.2.2]
  | .keyValue key value, h => by
      simp only [Expr.nodes, List.forall_mem_cons, List.forall_mem_append] at h
      obtain ⟨hpair, hkey, hvalue⟩ := h
      rw [Expr.renameKey, key.renameKey_eq_self hkey, value.renameKey_eq_self hvalue]
      cases key with
      | ident name =>
          have hname : name ≠ old := by
            rw [assigned_keyValue_ident] at hpair
            intro heq
            rw [if_pos heq] at hpair
            cases hpair
          rw [Expr.asKey, if_neg hname]
      | _ => rfl
  | .call callee args, h => by
      simp only [Expr.nodes, List.forall_mem_cons, List.forall_mem_append] at h
      rw [Expr.renameKey, callee.renameKey_eq_self h.2.1, exprs_renameKey_eq_self args h.2.2]
  | .funcLit body, h => by
      rw [Expr.renameKey, stmts_renameKey_eq_self body fun n hn => h n (List.mem_cons_of_mem _ hn)]
  | .other kind children, h => by
      rw [Expr.renameKey, exprs_renameKey_eq_self children fun n hn => h n (List.mem_cons_of_mem _ hn)]

theorem Stmt.renameKey_eq_self : ∀ x : Stmt, (∀ n ∈ x.nodes, assigned old n = none) →
    x.renameKey old new = x
  | .expr x, h => by
      rw [Stmt.renameKey, x.renameKey_eq_self fun n hn => h n (List.mem_cons_of_mem _ hn)]
  | .ret values, h => by
      rw [Stmt.renameKey, exprs_renameKey_eq_self values fun n hn => h n (List.mem_cons_of_mem _ hn)]
  | .assign lhs rhs, h => by
      simp only [Stmt.nodes, List.forall_mem_cons, List.forall_mem_append] at h
      rw [Stmt.renameKey, exprs_renameKey_eq_self lhs h.2.1, exprs_renameKey_eq_self rhs h.2.2]
  | .block stmts, h => by
      rw [Stmt.renameKey, stmts_renameKey_eq_self stmts fun n hn => h n (List.mem_cons_of_mem _ hn)]
  | .other kind exprs stmts, h => by
      simp only [Stmt.nodes, List.forall_mem_cons, List.forall_mem_append] at h
      rw [Stmt.renameKey, exprs_renameKey_eq_self exprs h.2.1, stmts_renameKey_eq_self stmts h.2.2]

theorem exprs_renameKey_eq_self : ∀ xs : List Expr, (∀ n ∈ exprNodes xs, assigned old n = none) →
    renameKeyExprs old new xs = xs
  | [], _ => rfl
  | x :: xs, h => by
      rw [exprNodes, List.forall_mem_append] at h
      rw [renameKeyExprs, x.renameKey_eq_self h.1, exprs_renameKey_eq_self xs h.2]

theorem stmts_renameKey_eq_self : ∀ xs : List Stmt, (∀ n ∈ stmtNodes xs, assigned old n = none) →
    renameKeyStmts old new xs = xs
  | [], _ => rfl
  | x :: xs, h => by
      rw [stmtNodes, List.forall_mem_append] at h
      rw [renameKeyStmts, x.renameKey_eq_self h.1, stmts_renameKey_eq_self xs h.2]

end

end ProviderManual.Source
