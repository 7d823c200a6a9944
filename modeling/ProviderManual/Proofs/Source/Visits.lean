import ProviderManual.Proofs.Source.Preorder

/-! Which nodes a walk visits. -/

namespace ProviderManual.Source

variable {σ α β : Type}

def Flow.outcome : Flow β σ → Option β × σ
  | stop v s => (some v, s)
  | go s => (none, s)

def Flow.note (seen : List Node) : Flow β σ → Flow β (σ × List Node)
  | stop v s => stop v (s, seen)
  | go s => go (s, seen)

theorem outcome_note (flow : Flow β σ) (seen : List Node) :
    (flow.note seen).outcome = (flow.outcome.1, flow.outcome.2, seen) := by
  cases flow <;> rfl

def noting (visit : Node → σ → Flow β σ) (node : Node) (s : σ × List Node) : Flow β (σ × List Node) :=
  (visit node s.1).note (s.2 ++ [node])

def notingCalls (find : Node → σ → Option α × σ) (node : Node) (s : σ × List Node) :
    Option α × (σ × List Node) :=
  ((find node s.1).1, (find node s.1).2, s.2 ++ [node])

/-- Called on the nodes in turn, from the first state on, `ask` has no answer and leaves the second state. -/
inductive Unanswered (ask : Node → σ → Option α × σ) : List Node → σ → σ → Prop
  | nil {s} : Unanswered ask [] s s
  | cons {node nodes s s' s''} : ask node s = (none, s') → Unanswered ask nodes s' s'' →
      Unanswered ask (node :: nodes) s s''

/-- From a state on, `ask` is called on the nodes seen, and this is the outcome: it has no answer on any node
of the listing; or it has none on those before some node and answers there, which is the last one seen. -/
inductive FirstAnswer (ask : Node → σ → Option α × σ) (listing : List Node) (s : σ) :
    List Node → Option α × σ → Prop
  | never {s'} : Unanswered ask listing s s' → FirstAnswer ask listing s listing (none, s')
  | answered {before node after s' v s''} : listing = before ++ node :: after →
      Unanswered ask before s s' → ask node s' = (some v, s'') →
      FirstAnswer ask listing s (before ++ [node]) (some v, s'')

section Listing

variable {ask : Node → σ → Option α × σ} {node : Node} {listing seen : List Node} {s s' : σ}
  {outcome : Option α × σ}

theorem FirstAnswer.cons (hnode : ask node s = (none, s')) (h : FirstAnswer ask listing s' seen outcome) :
    FirstAnswer ask (node :: listing) s (node :: seen) outcome := by
  cases h with
  | never hall => exact .never (.cons hnode hall)
  | answered hlisting hbefore hlast =>
      exact .answered (congrArg (node :: ·) hlisting) (.cons hnode hbefore) hlast

theorem FirstAnswer.seen_prefix (h : FirstAnswer ask listing s seen outcome) : seen <+: listing := by
  cases h with
  | never _ => exact List.prefix_rfl
  | @answered before node after _ _ _ hlisting _ _ => exact ⟨after, by simp [hlisting]⟩

theorem visitAll_eq_foldl (visit : Node → σ → Flow β σ) (nodes : List Node) (s : σ) :
    visitAll visit nodes s = nodes.foldl (fun flow node => flow.andThen (visit node)) (.go s) := by
  have hfold (flow : Flow β σ) :
      nodes.foldl (fun flow node => flow.andThen (visit node)) flow = flow.andThen (visitAll visit nodes) := by
    induction nodes generalizing flow with
    | nil => exact (Flow.andThen_go flow).symm
    | cons node nodes ih =>
        rw [List.foldl_cons, ih, Flow.andThen_assoc]
        rfl
  rw [hfold, Flow.go_andThen]

theorem visitAll_noting (visit : Node → σ → Flow β σ) (listing : List Node) (s : σ) (before : List Node) :
    ∃ seen, visitAll (noting visit) listing (s, before) = (visitAll visit listing s).note (before ++ seen) ∧
      FirstAnswer (fun node s => (visit node s).outcome) listing s seen (visitAll visit listing s).outcome := by
  induction listing generalizing s before with
  | nil => exact ⟨[], by simp [visitAll, Flow.note], .never .nil⟩
  | cons node listing ih =>
      cases hvisit : visit node s with
      | stop v s' =>
          refine ⟨[node], by simp [visitAll, noting, hvisit, Flow.note], ?_⟩
          have hsplit : node :: listing = [] ++ node :: listing := rfl
          rw [visitAll, hvisit]
          exact .answered hsplit .nil (by rw [hvisit, Flow.outcome])
      | go s' =>
          obtain ⟨seen, hseen, hfirst⟩ := ih s' (before ++ [node])
          refine ⟨node :: seen, ?_, ?_⟩
          · rw [visitAll, visitAll, hvisit, noting, hvisit, Flow.note, Flow.go_andThen, Flow.go_andThen, hseen,
              List.append_assoc, List.singleton_append]
          · rw [visitAll, hvisit, Flow.go_andThen]
            exact .cons (by rw [hvisit, Flow.outcome]) hfirst

end Listing

section Search

variable (find : Node → σ → Option α × σ)

def stopAtAnswer (node : Node) (s : σ) : Flow α σ :=
  match find node s with
  | (some found, s) => .stop found s
  | (none, s) => .go s

theorem outcome_stopAtAnswer (node : Node) (s : σ) : (stopAtAnswer find node s).outcome = find node s := by
  rw [stopAtAnswer]
  split <;> simp_all [Flow.outcome]

theorem stopAtAnswer_notingCalls : stopAtAnswer (notingCalls find) = noting (stopAtAnswer find) := by
  funext node s
  rw [noting, stopAtAnswer, stopAtAnswer, notingCalls]
  rcases find node s.1 with ⟨_ | v, s'⟩ <;> rfl

theorem searchFrom_eq (roots : List Node) (s : σ) :
    searchFrom find roots s = (visitAll (stopAtAnswer find) (roots.flatMap Node.nodes) s).outcome := by
  rw [← walkAll_eq]
  change ((walkAll (stopAtAnswer find) roots s).value?, (walkAll (stopAtAnswer find) roots s).state) = _
  cases walkAll (stopAtAnswer find) roots s <;> rfl

end Search

/-- A walk is the left fold of the visitor over the preorder listing, cut short by the first stop; a
search ends with the first answer in the listings. -/
theorem walk_and_search_visit_in_preorder :
    (∀ n : Node, ∃ places, ListsPlaces n.nodeAt? places n.nodes ∧
      ∀ (visit : Node → σ → Flow β σ) (s : σ),
        n.walk visit s = n.nodes.foldl (fun flow node => flow.andThen (visit node)) (.go s) ∧
        ∃ seen visited,
          n.walk (noting visit) (s, []) = (n.walk visit s).note seen ∧
          FirstAnswer (fun node s => (visit node s).outcome) n.nodes s seen (n.walk visit s).outcome ∧
          visited <+: places ∧ visited.Nodup ∧ visited.map n.nodeAt? = seen.map some) ∧
    ∀ roots : List Node,
      (∀ (find : Node → σ → Option α × σ) (s : σ), ∃ seen,
        searchFrom (notingCalls find) roots (s, []) =
          ((searchFrom find roots s).1, (searchFrom find roots s).2, seen) ∧
        FirstAnswer find (roots.flatMap Node.nodes) s seen (searchFrom find roots s)) ∧
      ∀ find : Node → Option α, search find roots = (roots.flatMap Node.nodes).findSome? find := by
  refine ⟨fun n => ?_, fun roots => ⟨fun find s => ?_, fun find => search_eq find roots⟩⟩
  · obtain ⟨places, hplaces⟩ := n.exists_listsPlaces
    refine ⟨places, hplaces, fun visit s => ?_⟩
    obtain ⟨seen, hseen, hfirst⟩ := visitAll_noting visit n.nodes s []
    rw [n.walk_eq visit, n.walk_eq (noting visit)]
    refine ⟨visitAll_eq_foldl visit n.nodes s, seen, places.take seen.length, hseen, hfirst,
      List.take_prefix _ _, hplaces.nodup.sublist (List.take_sublist _ _), ?_⟩
    have hprefix : seen = n.nodes.take seen.length := List.prefix_iff_eq_take.1 hfirst.seen_prefix
    rw [List.map_take, hplaces.listed, ← List.map_take, ← hprefix]
  · obtain ⟨seen, hseen, hfirst⟩ := visitAll_noting (stopAtAnswer find) (roots.flatMap Node.nodes) s []
    simp only [outcome_stopAtAnswer] at hfirst
    refine ⟨seen, ?_, ?_⟩
    · rw [searchFrom_eq, stopAtAnswer_notingCalls, hseen, outcome_note, searchFrom_eq, List.nil_append]
    · rw [searchFrom_eq]
      exact hfirst

end ProviderManual.Source
