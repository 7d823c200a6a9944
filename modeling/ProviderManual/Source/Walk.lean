import ProviderManual.Source.Expr

/-! Walks in preorder; a visitor carries a state along and may stop with a value. -/

namespace ProviderManual.Source

/-- How a walk goes on: it stops with a value, or continues. Both keep the visitor's state. -/
inductive Flow (β σ : Type) where
  | stop (value : β) (state : σ)
  | go (state : σ)
  deriving DecidableEq, Repr

namespace Flow

variable {β σ : Type}

def andThen (flow : Flow β σ) (next : σ → Flow β σ) : Flow β σ :=
  match flow with
  | stop value state => stop value state
  | go state => next state

def state : Flow β σ → σ
  | stop _ s => s
  | go s => s

def value? : Flow β σ → Option β
  | stop v _ => some v
  | go _ => none

@[simp] theorem go_andThen (s : σ) (next : σ → Flow β σ) : (go s).andThen next = next s := rfl

@[simp] theorem stop_andThen (v : β) (s : σ) (next : σ → Flow β σ) :
    (stop v s).andThen next = stop v s := rfl

theorem andThen_assoc (flow : Flow β σ) (f g : σ → Flow β σ) :
    (flow.andThen f).andThen g = flow.andThen (fun s => (f s).andThen g) := by
  cases flow <;> rfl

@[simp] theorem andThen_go (flow : Flow β σ) : flow.andThen go = flow := by
  cases flow <;> rfl

end Flow

variable {β σ : Type}

mutual

def Expr.walk (visit : Node → σ → Flow β σ) : Expr → σ → Flow β σ
  | .ident name, s => visit (.expr (.ident name)) s
  | .basicLit kind value, s => visit (.expr (.basicLit kind value)) s
  | .selector x sel, s => (visit (.expr (.selector x sel)) s).andThen (x.walk visit)
  | .star x, s => (visit (.expr (.star x)) s).andThen (x.walk visit)
  | .unary op x, s => (visit (.expr (.unary op x)) s).andThen (x.walk visit)
  | .composite none elements, s =>
      (visit (.expr (.composite none elements)) s).andThen (walkExprs visit elements)
  | .composite (some type) elements, s =>
      (visit (.expr (.composite (some type) elements)) s).andThen fun s =>
        (type.walk visit s).andThen (walkExprs visit elements)
  | .keyValue key value, s =>
      (visit (.expr (.keyValue key value)) s).andThen fun s =>
        (key.walk visit s).andThen (value.walk visit)
  | .call callee args, s =>
      (visit (.expr (.call callee args)) s).andThen fun s =>
        (callee.walk visit s).andThen (walkExprs visit args)
  | .funcLit body, s => (visit (.expr (.funcLit body)) s).andThen (walkStmts visit body)
  | .other kind children, s =>
      (visit (.expr (.other kind children)) s).andThen (walkExprs visit children)

def Stmt.walk (visit : Node → σ → Flow β σ) : Stmt → σ → Flow β σ
  | .expr x, s => (visit (.stmt (.expr x)) s).andThen (x.walk visit)
  | .ret values, s => (visit (.stmt (.ret values)) s).andThen (walkExprs visit values)
  | .assign lhs rhs, s =>
      (visit (.stmt (.assign lhs rhs)) s).andThen fun s =>
        (walkExprs visit lhs s).andThen (walkExprs visit rhs)
  | .block stmts, s => (visit (.stmt (.block stmts)) s).andThen (walkStmts visit stmts)
  | .other kind exprs stmts, s =>
      (visit (.stmt (.other kind exprs stmts)) s).andThen fun s =>
        (walkExprs visit exprs s).andThen (walkStmts visit stmts)

def walkExprs (visit : Node → σ → Flow β σ) : List Expr → σ → Flow β σ
  | [], s => .go s
  | x :: xs, s => (x.walk visit s).andThen (walkExprs visit xs)

def walkStmts (visit : Node → σ → Flow β σ) : List Stmt → σ → Flow β σ
  | [], s => .go s
  | x :: xs, s => (x.walk visit s).andThen (walkStmts visit xs)

end

def Node.walk (visit : Node → σ → Flow β σ) : Node → σ → Flow β σ
  | .expr x => x.walk visit
  | .stmt x => x.walk visit

def walkAll (visit : Node → σ → Flow β σ) : List Node → σ → Flow β σ
  | [], s => .go s
  | root :: roots, s => (root.walk visit s).andThen (walkAll visit roots)

mutual

def Expr.nodes : Expr → List Node
  | .ident name => [.expr (.ident name)]
  | .basicLit kind value => [.expr (.basicLit kind value)]
  | .selector x sel => .expr (.selector x sel) :: x.nodes
  | .star x => .expr (.star x) :: x.nodes
  | .unary op x => .expr (.unary op x) :: x.nodes
  | .composite none elements => .expr (.composite none elements) :: exprNodes elements
  | .composite (some type) elements =>
      .expr (.composite (some type) elements) :: (type.nodes ++ exprNodes elements)
  | .keyValue key value => .expr (.keyValue key value) :: (key.nodes ++ value.nodes)
  | .call callee args => .expr (.call callee args) :: (callee.nodes ++ exprNodes args)
  | .funcLit body => .expr (.funcLit body) :: stmtNodes body
  | .other kind children => .expr (.other kind children) :: exprNodes children

def Stmt.nodes : Stmt → List Node
  | .expr x => .stmt (.expr x) :: x.nodes
  | .ret values => .stmt (.ret values) :: exprNodes values
  | .assign lhs rhs => .stmt (.assign lhs rhs) :: (exprNodes lhs ++ exprNodes rhs)
  | .block stmts => .stmt (.block stmts) :: stmtNodes stmts
  | .other kind exprs stmts =>
      .stmt (.other kind exprs stmts) :: (exprNodes exprs ++ stmtNodes stmts)

def exprNodes : List Expr → List Node
  | [] => []
  | x :: xs => x.nodes ++ exprNodes xs

def stmtNodes : List Stmt → List Node
  | [] => []
  | x :: xs => x.nodes ++ stmtNodes xs

end

def Node.nodes : Node → List Node
  | .expr x => x.nodes
  | .stmt x => x.nodes

def visitAll (visit : Node → σ → Flow β σ) : List Node → σ → Flow β σ
  | [], s => .go s
  | node :: nodes, s => (visit node s).andThen (visitAll visit nodes)

theorem visitAll_append (visit : Node → σ → Flow β σ) (xs ys : List Node) (s : σ) :
    visitAll visit (xs ++ ys) s = (visitAll visit xs s).andThen (visitAll visit ys) := by
  induction xs generalizing s with
  | nil => rfl
  | cons x xs ih =>
      simp only [List.cons_append, visitAll, Flow.andThen_assoc]
      exact congrArg _ (funext ih)

theorem visitAll_append' (visit : Node → σ → Flow β σ) (xs ys : List Node) :
    visitAll visit (xs ++ ys) = fun s => (visitAll visit xs s).andThen (visitAll visit ys) :=
  funext (visitAll_append visit xs ys)

mutual

theorem Expr.walk_eq (visit : Node → σ → Flow β σ) :
    ∀ x : Expr, x.walk visit = visitAll visit x.nodes
  | .ident name => by funext s; simp [Expr.walk, Expr.nodes, visitAll]
  | .basicLit kind value => by funext s; simp [Expr.walk, Expr.nodes, visitAll]
  | .selector x sel => by funext s; simp [Expr.walk, Expr.nodes, visitAll, x.walk_eq visit]
  | .star x => by funext s; simp [Expr.walk, Expr.nodes, visitAll, x.walk_eq visit]
  | .unary op x => by funext s; simp [Expr.walk, Expr.nodes, visitAll, x.walk_eq visit]
  | .composite none elements => by
      funext s; simp [Expr.walk, Expr.nodes, visitAll, walkExprs_eq visit elements]
  | .composite (some type) elements => by
      funext s
      simp [Expr.walk, Expr.nodes, visitAll, visitAll_append', type.walk_eq visit,
        walkExprs_eq visit elements]
  | .keyValue key value => by
      funext s
      simp [Expr.walk, Expr.nodes, visitAll, visitAll_append', key.walk_eq visit,
        value.walk_eq visit]
  | .call callee args => by
      funext s
      simp [Expr.walk, Expr.nodes, visitAll, visitAll_append', callee.walk_eq visit,
        walkExprs_eq visit args]
  | .funcLit body => by
      funext s; simp [Expr.walk, Expr.nodes, visitAll, walkStmts_eq visit body]
  | .other kind children => by
      funext s; simp [Expr.walk, Expr.nodes, visitAll, walkExprs_eq visit children]

theorem Stmt.walk_eq (visit : Node → σ → Flow β σ) :
    ∀ x : Stmt, x.walk visit = visitAll visit x.nodes
  | .expr x => by funext s; simp [Stmt.walk, Stmt.nodes, visitAll, x.walk_eq visit]
  | .ret values => by
      funext s; simp [Stmt.walk, Stmt.nodes, visitAll, walkExprs_eq visit values]
  | .assign lhs rhs => by
      funext s
      simp [Stmt.walk, Stmt.nodes, visitAll, visitAll_append', walkExprs_eq visit lhs,
        walkExprs_eq visit rhs]
  | .block stmts => by
      funext s; simp [Stmt.walk, Stmt.nodes, visitAll, walkStmts_eq visit stmts]
  | .other kind exprs stmts => by
      funext s
      simp [Stmt.walk, Stmt.nodes, visitAll, visitAll_append', walkExprs_eq visit exprs,
        walkStmts_eq visit stmts]

theorem walkExprs_eq (visit : Node → σ → Flow β σ) :
    ∀ xs : List Expr, walkExprs visit xs = visitAll visit (exprNodes xs)
  | [] => by funext s; simp [walkExprs, exprNodes, visitAll]
  | x :: xs => by
      funext s
      simp [walkExprs, exprNodes, visitAll_append', x.walk_eq visit, walkExprs_eq visit xs]

theorem walkStmts_eq (visit : Node → σ → Flow β σ) :
    ∀ xs : List Stmt, walkStmts visit xs = visitAll visit (stmtNodes xs)
  | [] => by funext s; simp [walkStmts, stmtNodes, visitAll]
  | x :: xs => by
      funext s
      simp [walkStmts, stmtNodes, visitAll_append', x.walk_eq visit, walkStmts_eq visit xs]

end

theorem Node.walk_eq (visit : Node → σ → Flow β σ) (n : Node) :
    n.walk visit = visitAll visit n.nodes := by
  cases n with
  | expr x => exact x.walk_eq visit
  | stmt x => exact x.walk_eq visit

theorem walkAll_eq (visit : Node → σ → Flow β σ) (roots : List Node) :
    walkAll visit roots = visitAll visit (roots.flatMap Node.nodes) := by
  induction roots with
  | nil => rfl
  | cons root roots ih =>
      funext s
      simp [walkAll, visitAll_append', root.walk_eq visit, ih]

def searchFrom {α : Type} (find : Node → σ → Option α × σ) (roots : List Node) (s : σ) :
    Option α × σ :=
  let visit := fun node s =>
    match find node s with
    | (some found, s) => Flow.stop found s
    | (none, s) => Flow.go s
  let flow := walkAll visit roots s
  (flow.value?, flow.state)

def search {α : Type} (find : Node → Option α) (roots : List Node) : Option α :=
  (searchFrom (fun node (_ : Unit) => (find node, ())) roots ()).1

theorem search_eq {α : Type} (find : Node → Option α) (roots : List Node) :
    search find roots = (roots.flatMap Node.nodes).findSome? find := by
  simp only [search, searchFrom, walkAll_eq]
  generalize roots.flatMap Node.nodes = nodes
  induction nodes with
  | nil => rfl
  | cons n ns ih =>
      simp only [visitAll, List.findSome?_cons]
      cases h : find n with
      | some found => rfl
      | none => simpa [Flow.andThen] using ih

end ProviderManual.Source
