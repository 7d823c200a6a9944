import ProviderManual.Proofs.Source.LoweredForms
import ProviderManual.Proofs.Source.RenamedKeys

/-! No literal is lost when a function is lowered. -/

namespace ProviderManual.Source

open ProviderManual.Schema

def Accounts (ns : List Node) (ts : List Tree) : Prop :=
  ∀ family, (ns.filter (·.family? = some family)).Perm
    ((ts.filter (·.family? = some family)).map fun t => .expr t.toExpr)

namespace Accounts

variable {ns ns' ms : List Node} {ts us : List Tree} {t : Tree}

theorem nil : Accounts [] [] :=
  fun _ => .refl _

theorem append (h : Accounts ns ts) (h' : Accounts ms us) : Accounts (ns ++ ms) (ts ++ us) := by
  intro family
  rw [List.filter_append, List.filter_append, List.map_append]
  exact (h family).append (h' family)

theorem congr (h : SameLiterals ns ns') (h' : Accounts ns' ts) : Accounts ns ts :=
  fun family => (h family).trans (h' family)

theorem skip (ht : t.family? = none) (h : Accounts ns ts) : Accounts ns (t :: ts) := by
  intro family
  rw [List.filter_cons_of_neg (by simp [ht])]
  exact h family

theorem own (h : t.family? ≠ none → (Node.expr t.toExpr).family? = t.family?) :
    Accounts t.own [t] := by
  by_cases ht : t.family? = none
  · rw [Tree.own, if_pos ht]
    exact skip ht nil
  · intro family
    rw [Tree.own, if_neg ht]
    by_cases hf : t.family? = some family
    · simp [h ht, hf]
    · simp [h ht, hf]

end Accounts

theorem Tree.reached_comment {t : Tree} (h : t.conforms = true) (hk : t.kind = .comment) :
    t.reached = [t] := by
  obtain ⟨k, r, text, cs⟩ := t
  obtain rfl : cs = [] := (Tree.role_of_comment h hk).2
  rw [Tree.reached, reachedAmong]

theorem shown_cons {parent : NodeKind} {t : Tree} {ts : List Tree} (hk : t.kind ≠ .comment) :
    shown parent (t :: ts) =
      if hides parent t.role then shown parent ts else t :: shown parent ts := by
  rw [shown, bare_cons hk]
  cases h : hides parent t.role <;> simp [shown, h]

mutual

theorem Tree.accounts : ∀ t : Tree, t.conforms = true → t.kind ≠ .comment →
    Accounts t.given t.reached
  | .node kind role text cs, h, hk => by
      obtain ⟨hfamily, hgiven⟩ := Tree.splits h hk
      have hparts := accountsAmong kind cs (Tree.conforms_node h hk).2
      rw [Tree.reached, ← List.singleton_append]
      exact .congr hgiven (.append (.own hfamily) hparts)

theorem accountsAmong : ∀ (parent : NodeKind) (ts : List Tree), (∀ t ∈ ts, t.conforms = true) →
    Accounts ((shown parent ts).flatMap Tree.given) (reachedAmong parent ts)
  | parent, [], _ => .nil
  | parent, t :: ts, h => by
      have hrest := accountsAmong parent ts fun u hu => h u (List.mem_cons_of_mem t hu)
      have ht := h t List.mem_cons_self
      rw [reachedAmong]
      by_cases hk : t.kind = .comment
      · have hshown : shown parent (t :: ts) = shown parent ts := by
          rw [shown, bare_cons_comment hk, shown]
        have hplain : hides parent t.role = false := by
          rw [(Tree.role_of_comment ht hk).1]
          cases parent <;> rfl
        rw [hshown, hplain, Tree.reached_comment ht hk]
        exact .skip (by simp [Tree.family?, hk]) hrest
      · rw [shown_cons hk]
        cases hides parent t.role with
        | true => exact hrest
        | false => exact .append (Tree.accounts t ht hk) hrest

end

def noteNode (n : Node) (seen : List Node) : Flow Empty (List Node) :=
  .go (seen ++ [n])

theorem visitAll_noteNode (nodes seen : List Node) :
    visitAll noteNode nodes seen = .go (seen ++ nodes) := by
  induction nodes generalizing seen with
  | nil => rw [visitAll, List.append_nil]
  | cons n nodes ih =>
      rw [visitAll, noteNode, Flow.go_andThen, ih, List.append_assoc, List.singleton_append]

theorem accounts_toFunc {t body : Tree} (doc : String) (row : Nat)
    (hbody : t.child? .body = some body) (hk : body.kind = .block)
    (hconf : body.conforms = true) : Accounts (t.toFunc doc row).nodes body.reached := by
  have hfunc : (t.toFunc doc row).nodes = stmtNodes (blockOf body.children) := by
    rw [Func.nodes_eq, Tree.toFunc, blockIn_eq]
    rw [Tree.child?] at hbody
    rw [hbody]
    rfl
  rw [hfunc]
  exact .congr (given_block hk).symm (body.accounts hconf (by simp [hk]))

/-- A walk over a lowered function comes once by each key, call and composite literal of the body
outside the parts left out. -/
theorem literals_visited_once (t body : Tree) (doc : String) (row : Nat)
    (hbody : t.child? .body = some body) (hk : body.kind = .block)
    (hconf : body.conforms = true) :
    (∃ visited, walkAll noteNode (t.toFunc doc row).roots [] = .go visited ∧
      ∀ family, (visited.filter (·.family? = some family)).Perm
        ((body.reached.filter (·.family? = some family)).map fun u => .expr u.toExpr)) ∧
    ∀ {α : Type} (find : Node → Option α), ∀ u ∈ body.reached, u.family? ≠ none →
      (find (.expr u.toExpr)).isSome → (search find (t.toFunc doc row).roots).isSome := by
  have haccounts := accounts_toFunc doc row hbody hk hconf
  refine ⟨⟨(t.toFunc doc row).nodes, ?_, haccounts⟩, fun find u hu hfamily hfound => ?_⟩
  · rw [walkAll_eq, visitAll_noteNode, List.nil_append, Func.nodes]
  · obtain ⟨family, hfamily⟩ := Option.ne_none_iff_exists'.mp hfamily
    have hmem : Node.expr u.toExpr ∈ (t.toFunc doc row).nodes := by
      refine (List.mem_filter.mp ((haccounts family).mem_iff.mpr ?_)).1
      exact List.mem_map.mpr ⟨u, List.mem_filter.mpr ⟨hu, by simpa using hfamily⟩, rfl⟩
    rw [search_eq, List.findSome?_isSome_iff]
    exact ⟨_, hmem, hfound⟩

def schemaElement : Tree :=
  .branch .keyedElement
    [.branch .literalElement [.leaf .identifier "Schema"],
      .branch .literalElement
        [.branch .literalValue
          [.branch .keyedElement
            [.branch .literalElement [.leaf .identifier "Size"],
              .branch .literalElement [.leaf .identifier "size"]]]]]

def useCall : Tree :=
  .branch .callExpression
    [(Tree.leaf .identifier "use").withRole .function,
      (Tree.branch .argumentList
        [.branch .compositeLiteral
          [(Tree.branch .qualifiedType
              [(Tree.leaf .packageIdentifier "schema").withRole .package,
                (Tree.leaf .typeIdentifier "Schema").withRole .name]).withRole .type,
            (Tree.branch .literalValue [schemaElement]).withRole .body]]).withRole .arguments]

def deferringBody : Tree :=
  .branch .block
    [.branch .varDeclaration
        [.branch .varSpec
          [(Tree.leaf .identifier "room").withRole .name,
            (Tree.branch .arrayType
              [.branch .callExpression
                  [(Tree.leaf .identifier "width").withRole .function,
                    (Tree.branch .argumentList []).withRole .arguments],
                .leaf .typeIdentifier "int"]).withRole .type]],
      .leaf .comment "// later",
      .branch .ifStatement
        [.leaf .identifier "ready",
          .branch .block
            [.branch .deferStatement
              [.branch .callExpression
                [(Tree.branch .funcLiteral
                    [(Tree.branch .parameterList []).withRole .parameters,
                      (Tree.branch .block
                        [.branch .expressionStatement [useCall]]).withRole .body]).withRole
                      .function,
                  (Tree.branch .argumentList []).withRole .arguments]]]]]

def deferringFunction : Tree :=
  .branch .functionDeclaration
    [(Tree.leaf .identifier "late").withRole .name,
      (Tree.branch .parameterList []).withRole .parameters, deferringBody.withRole .body]

theorem deferred_schema_key_visited :
    (deferringBody.withRole .body).conforms = true ∧
      (∃ visited, walkAll noteNode (deferringFunction.toFunc "" 0).roots [] = .go visited ∧
        (visited.filter (·.family? = some .keyValue)).length = 2 ∧
        (visited.filter (·.family? = some .call)).length = 2 ∧
        (visited.filter (·.family? = some .composite)).length = 2) ∧
      (search (assigned "Schema") (deferringFunction.toFunc "" 0).roots).isSome := by
  have hconf : (deferringBody.withRole .body).conforms = true := by decide
  obtain ⟨⟨visited, hwalk, hperm⟩, hsearch⟩ := literals_visited_once deferringFunction
    (deferringBody.withRole .body) "" 0 rfl rfl hconf
  refine ⟨hconf, ⟨visited, hwalk, ?_, ?_, ?_⟩, ?_⟩
  · rw [(hperm .keyValue).length_eq]
    rfl
  · rw [(hperm .call).length_eq]
    rfl
  · rw [(hperm .composite).length_eq]
    rfl
  · exact hsearch (assigned "Schema") schemaElement (List.mem_of_getElem? (i := 21) rfl)
      (by decide) rfl

end ProviderManual.Source
