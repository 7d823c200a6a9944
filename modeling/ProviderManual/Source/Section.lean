import ProviderManual.Source.Walk

namespace ProviderManual.Source

def Section (n : Node) (listing : List Node) : Prop :=
  n ∈ listing → n.nodes <:+: listing

theorem Section.append {n : Node} {xs ys : List Node} (hx : Section n xs) (hy : Section n ys) :
    Section n (xs ++ ys) := by
  intro h
  rcases List.mem_append.1 h with h | h
  · exact (hx h).trans (List.prefix_append xs ys).isInfix
  · exact (hy h).trans (List.suffix_append xs ys).isInfix

theorem Section.cons {n root : Node} {xs : List Node} (hroot : root.nodes = root :: xs)
    (h : Section n xs) : Section n (root :: xs) := by
  intro hn
  rcases List.mem_cons.1 hn with rfl | hn
  · exact hroot ▸ List.infix_rfl
  · exact (h hn).trans (List.suffix_cons root xs).isInfix

theorem Section.nil (n : Node) : Section n [] := by
  intro h; cases h

mutual

theorem Expr.nodes_section (n : Node) : ∀ x : Expr, Section n x.nodes
  | .ident _ => .cons rfl (.nil n)
  | .basicLit _ _ => .cons rfl (.nil n)
  | .selector x _ => .cons rfl (x.nodes_section n)
  | .star x => .cons rfl (x.nodes_section n)
  | .unary _ x => .cons rfl (x.nodes_section n)
  | .composite none elements => .cons rfl (exprNodes_section n elements)
  | .composite (some type) elements =>
      .cons rfl (.append (type.nodes_section n) (exprNodes_section n elements))
  | .keyValue key value => .cons rfl (.append (key.nodes_section n) (value.nodes_section n))
  | .call callee args => .cons rfl (.append (callee.nodes_section n) (exprNodes_section n args))
  | .funcLit body => .cons rfl (stmtNodes_section n body)
  | .other _ children => .cons rfl (exprNodes_section n children)

theorem Stmt.nodes_section (n : Node) : ∀ x : Stmt, Section n x.nodes
  | .expr x => .cons rfl (x.nodes_section n)
  | .ret values => .cons rfl (exprNodes_section n values)
  | .assign lhs rhs => .cons rfl (.append (exprNodes_section n lhs) (exprNodes_section n rhs))
  | .block stmts => .cons rfl (stmtNodes_section n stmts)
  | .other _ exprs stmts =>
      .cons rfl (.append (exprNodes_section n exprs) (stmtNodes_section n stmts))

theorem exprNodes_section (n : Node) : ∀ xs : List Expr, Section n (exprNodes xs)
  | [] => .nil n
  | x :: xs => .append (x.nodes_section n) (exprNodes_section n xs)

theorem stmtNodes_section (n : Node) : ∀ xs : List Stmt, Section n (stmtNodes xs)
  | [] => .nil n
  | x :: xs => .append (x.nodes_section n) (stmtNodes_section n xs)

end

theorem exprNodes_eq (xs : List Expr) : exprNodes xs = (xs.map Node.expr).flatMap Node.nodes := by
  induction xs with
  | nil => rfl
  | cons x xs ih => simp [exprNodes, ih, Node.nodes]

theorem stmtNodes_eq (xs : List Stmt) : stmtNodes xs = (xs.map Node.stmt).flatMap Node.nodes := by
  induction xs with
  | nil => rfl
  | cons x xs ih => simp [stmtNodes, ih, Node.nodes]

def Expr.weight (x : Expr) : Nat :=
  x.nodes.length

def exprsWeight (xs : List Expr) : Nat :=
  (exprNodes xs).length

theorem weight_le_of_mem {x : Expr} {xs : List Expr} (h : x ∈ xs) :
    x.weight ≤ exprsWeight xs := by
  induction xs with
  | nil => cases h
  | cons y ys ih =>
      simp only [exprsWeight, exprNodes, List.length_append]
      rcases List.mem_cons.1 h with rfl | h
      · exact Nat.le_add_right _ _
      · exact Nat.le_trans (ih h) (Nat.le_add_left _ _)

theorem exprsWeight_lt_cons (x : Expr) (xs : List Expr) : exprsWeight xs < exprsWeight (x :: xs) := by
  have hx : 0 < x.nodes.length := by
    unfold Expr.nodes
    split <;> exact Nat.succ_pos _
  simp only [exprsWeight, exprNodes, List.length_append]
  omega

theorem exprsWeight_lt_composite (type : Option Expr) (elements : List Expr) :
    exprsWeight elements < (Expr.composite type elements).weight := by
  cases type <;> simp only [exprsWeight, Expr.weight, Expr.nodes, List.length_cons,
    List.length_append] <;> omega

theorem weight_lt_keyValue (key value : Expr) : value.weight < (Expr.keyValue key value).weight := by
  simp only [Expr.weight, Expr.nodes, List.length_cons, List.length_append]
  omega

theorem weight_le_of_mem_nodes {x : Expr} {xs : List Expr} (h : Node.expr x ∈ exprNodes xs) :
    x.weight ≤ exprsWeight xs :=
  (exprNodes_section (.expr x) xs h).length_le

end ProviderManual.Source
