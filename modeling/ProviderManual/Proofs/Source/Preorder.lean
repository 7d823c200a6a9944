import Mathlib.Data.List.Induction
import ProviderManual.Source.Section

/-! The places of a tree and the order in which a listing comes by them. -/

namespace ProviderManual.Source

/-- The nodes right below an expression, in the order of the source: the type of a literal before its
elements, a key before its value, the callee before the arguments. -/
def Expr.children : Expr → List Node
  | .ident _ => []
  | .basicLit _ _ => []
  | .selector x _ => [.expr x]
  | .star x => [.expr x]
  | .unary _ x => [.expr x]
  | .composite type elements => (type.toList ++ elements).map .expr
  | .keyValue key value => [.expr key, .expr value]
  | .call callee args => .expr callee :: args.map .expr
  | .funcLit body => body.map .stmt
  | .other _ children => children.map .expr

def Stmt.children : Stmt → List Node
  | .expr x => [.expr x]
  | .ret values => values.map .expr
  | .assign lhs rhs => (lhs ++ rhs).map .expr
  | .block stmts => stmts.map .stmt
  | .other _ exprs stmts => exprs.map .expr ++ stmts.map .stmt

def Node.children : Node → List Node
  | .expr x => x.children
  | .stmt x => x.children

theorem Expr.nodes_eq (x : Expr) : x.nodes = .expr x :: x.children.flatMap Node.nodes := by
  cases x with
  | composite type elements =>
      cases type <;> simp [Expr.nodes, Expr.children, exprNodes_eq, Node.nodes]
  | _ => simp [Expr.nodes, Expr.children, exprNodes_eq, stmtNodes_eq, Node.nodes]

theorem Stmt.nodes_eq (x : Stmt) : x.nodes = .stmt x :: x.children.flatMap Node.nodes := by
  cases x <;> simp [Stmt.nodes, Stmt.children, exprNodes_eq, stmtNodes_eq, Node.nodes]

theorem Node.nodes_eq (n : Node) : n.nodes = n :: n.children.flatMap Node.nodes := by
  cases n with
  | expr x => exact x.nodes_eq
  | stmt x => exact x.nodes_eq

theorem length_nodes_lt_of_mem_children {n child : Node} (h : child ∈ n.children) :
    child.nodes.length < n.nodes.length := by
  have hsublist : child.nodes.Sublist (n.children.flatMap Node.nodes) :=
    List.sublist_flatten_of_mem (List.mem_map_of_mem h)
  rw [n.nodes_eq, List.length_cons]
  exact Nat.lt_succ_of_le hsublist.length_le

/-- The node at a place. A place says at each level to which child to go. -/
def Node.nodeAt? : Node → List Nat → Option Node
  | n, [] => some n
  | n, i :: place => n.children[i]?.bind (·.nodeAt? place)

def rowAt? (row : List Node) : List Nat → Option Node
  | [] => none
  | i :: place => row[i]?.bind (·.nodeAt? place)

/-- The listing has what stands at the places, of which none is left out. They stand in lexicographic order:
a place before those below it, and all below one child before the next child. -/
structure ListsPlaces (nodeAt? : List Nat → Option Node) (places : List (List Nat)) (listing : List Node) :
    Prop where
  ordered : places.Pairwise (· < ·)
  complete : ∀ place node, nodeAt? place = some node → place ∈ places
  listed : places.map nodeAt? = listing.map some

section Places

variable {row : List Node} {nodeAt? : List Nat → Option Node} {places : List (List Nat)} {listing : List Node}

theorem ListsPlaces.nodup (h : ListsPlaces nodeAt? places listing) : places.Nodup := by
  refine List.Pairwise.imp ?_ h.ordered
  rintro place _ hlt rfl
  exact List.lt_irrefl place hlt

theorem ListsPlaces.exists_node (h : ListsPlaces nodeAt? places listing) {place : List Nat}
    (hplace : place ∈ places) : ∃ node, nodeAt? place = some node := by
  have hmem : nodeAt? place ∈ listing.map some := h.listed ▸ List.mem_map_of_mem hplace
  obtain ⟨node, -, hnode⟩ := List.mem_map.1 hmem
  exact ⟨node, hnode.symm⟩

theorem rowAt?_eq_some_iff {place : List Nat} {node : Node} :
    rowAt? row place = some node ↔
      ∃ i below child, place = i :: below ∧ row[i]? = some child ∧ child.nodeAt? below = some node := by
  cases place with
  | nil => simp [rowAt?]
  | cons i below => simp [rowAt?, Option.bind_eq_some_iff]

theorem ListsPlaces.root {n : Node} (h : ListsPlaces (rowAt? n.children) places listing) :
    ListsPlaces n.nodeAt? ([] :: places) (n :: listing) where
  ordered := by
    refine List.pairwise_cons.2 ⟨fun place hplace => ?_, h.ordered⟩
    obtain ⟨node, hnode⟩ := h.exists_node hplace
    obtain ⟨i, below, -, rfl, -⟩ := rowAt?_eq_some_iff.1 hnode
    exact List.nil_lt_cons i below
  complete := by
    intro place node hnode
    cases place with
    | nil => exact List.mem_cons_self
    | cons i below => exact List.mem_cons_of_mem _ (h.complete (i :: below) node hnode)
  listed := by
    have hbelow : places.map n.nodeAt? = places.map (rowAt? n.children) := by
      refine List.map_congr_left fun place hplace => ?_
      obtain ⟨node, hnode⟩ := h.exists_node hplace
      obtain ⟨i, below, -, rfl, -⟩ := rowAt?_eq_some_iff.1 hnode
      rfl
    rw [List.map_cons, List.map_cons, hbelow, h.listed]
    rfl

theorem ListsPlaces.concat {last : Node} {placesBelow : List (List Nat)} {listingBelow : List Node}
    (h : ListsPlaces (rowAt? row) places listing) (hlast : ListsPlaces last.nodeAt? placesBelow listingBelow) :
    ListsPlaces (rowAt? (row ++ [last])) (places ++ placesBelow.map (row.length :: ·))
      (listing ++ listingBelow) where
  ordered := by
    refine List.pairwise_append.2 ⟨h.ordered, ?_, fun place hplace place' hplace' => ?_⟩
    · exact List.pairwise_map.2 (hlast.ordered.imp fun hlt => List.cons_lt_cons_iff.2 (.inr ⟨rfl, hlt⟩))
    · obtain ⟨node, hnode⟩ := h.exists_node hplace
      obtain ⟨i, below, child, rfl, hchild, -⟩ := rowAt?_eq_some_iff.1 hnode
      obtain ⟨below', -, rfl⟩ := List.mem_map.1 hplace'
      obtain ⟨hi, -⟩ := List.getElem?_eq_some_iff.1 hchild
      exact List.cons_lt_cons_iff.2 (.inl hi)
  complete := by
    intro place node hnode
    obtain ⟨i, below, child, rfl, hchild, hbelow⟩ := rowAt?_eq_some_iff.1 hnode
    rw [List.mem_append]
    by_cases hi : i < row.length
    · rw [List.getElem?_append_left hi] at hchild
      exact .inl (h.complete _ node (rowAt?_eq_some_iff.2 ⟨i, below, child, rfl, hchild, hbelow⟩))
    · obtain ⟨hlt, -⟩ := List.getElem?_eq_some_iff.1 hchild
      obtain rfl : i = row.length := by
        rw [List.length_append, List.length_singleton] at hlt
        omega
      rw [List.getElem?_concat_length, Option.some.injEq] at hchild
      exact .inr (List.mem_map_of_mem (hlast.complete below node (hchild ▸ hbelow)))
  listed := by
    have hrow : places.map (rowAt? (row ++ [last])) = places.map (rowAt? row) := by
      refine List.map_congr_left fun place hplace => ?_
      obtain ⟨node, hnode⟩ := h.exists_node hplace
      obtain ⟨i, below, child, rfl, hchild, -⟩ := rowAt?_eq_some_iff.1 hnode
      obtain ⟨hi, -⟩ := List.getElem?_eq_some_iff.1 hchild
      rw [rowAt?, rowAt?, List.getElem?_append_left hi]
    have hbelow : (placesBelow.map (row.length :: ·)).map (rowAt? (row ++ [last])) =
        placesBelow.map last.nodeAt? := by
      rw [List.map_map]
      refine List.map_congr_left fun below _ => ?_
      rw [Function.comp_apply, rowAt?, List.getElem?_concat_length, Option.bind_some]
    rw [List.map_append, List.map_append, hrow, hbelow, h.listed, hlast.listed]

theorem exists_listsPlaces_row (h : ∀ n ∈ row, ∃ places, ListsPlaces n.nodeAt? places n.nodes) :
    ∃ places, ListsPlaces (rowAt? row) places (row.flatMap Node.nodes) := by
  induction row using List.reverseRecOn with
  | nil =>
      refine ⟨[], .nil, fun place node hnode => ?_, rfl⟩
      obtain ⟨i, below, child, -, hchild, -⟩ := rowAt?_eq_some_iff.1 hnode
      simp at hchild
  | append_singleton row last ih =>
      obtain ⟨places, hplaces⟩ := ih fun n hn => h n (List.mem_append_left _ hn)
      obtain ⟨placesBelow, hbelow⟩ := h last (by simp)
      rw [List.flatMap_append, List.flatMap_singleton]
      exact ⟨_, hplaces.concat hbelow⟩

end Places

theorem Node.exists_listsPlaces (n : Node) : ∃ places, ListsPlaces n.nodeAt? places n.nodes := by
  have hchildren : ∀ child ∈ n.children, ∃ places, ListsPlaces child.nodeAt? places child.nodes :=
    fun child _ => child.exists_listsPlaces
  obtain ⟨places, hplaces⟩ := exists_listsPlaces_row hchildren
  rw [n.nodes_eq]
  exact ⟨[] :: places, hplaces.root⟩
termination_by n.nodes.length
decreasing_by exact length_nodes_lt_of_mem_children ‹_›

end ProviderManual.Source
