import ProviderManual.Schema.Resolve

/-! A resolver that keeps one list of the builders under expansion and hands it from call to call. -/

namespace ProviderManual.Schema

open ProviderManual.Source ProviderManual.Manual

variable {α β : Type}

theorem suffix_tail_of_cons_suffix {b : String} {s t : List String} (h : b :: s <:+ t) :
    s <:+ t.tail := by
  obtain ⟨entered, rfl⟩ := h
  cases entered with
  | nil => exact List.suffix_refl s
  | cons c entered => exact (List.suffix_cons b s).trans (List.suffix_append entered (b :: s))

theorem untried_le_of_suffix {index : Index} {s t : List String} (h : s <:+ t) :
    (untried index t).length ≤ (untried index s).length := by
  simp only [untried, ← List.countP_eq_length_filter]
  refine List.countP_mono_left fun b _ hb => ?_
  simp only [decide_eq_true_eq] at hb ⊢
  exact fun hs => hb (h.subset hs)

/-- What a call gives, and the builders under expansion when it returns, the last entered first:
those of its start, and perhaps others that it has entered. -/
structure Returned (s : List String) (α : Type) where
  result : α
  expanding : List String
  kept : s <:+ expanding

namespace Returned

variable {s : List String}

def unchanged (s : List String) (a : α) : Returned s α :=
  ⟨a, s, List.suffix_refl s⟩

def map (f : α → β) (r : Returned s α) : Returned s β :=
  ⟨f r.result, r.expanding, r.kept⟩

def cons (first : Returned s α) (rest : Returned first.expanding (List α)) : Returned s (List α) :=
  ⟨first.result :: rest.result, rest.expanding, first.kept.trans rest.kept⟩

def leave {b : String} (r : Returned (b :: s) α) : Returned s α :=
  ⟨r.result, r.expanding.tail, suffix_tail_of_cons_suffix r.kept⟩

def pair (r : Returned s α) : α × List String :=
  (r.result, r.expanding)

theorem pair_map (f : α → β) (r : Returned s α) : (r.map f).pair = (f r.pair.1, r.pair.2) := rfl

theorem pair_cons (first : Returned s α) (rest : Returned first.expanding (List α)) :
    (first.cons rest).pair = (first.pair.1 :: rest.pair.1, rest.pair.2) := rfl

theorem pair_leave {b : String} (r : Returned (b :: s) α) :
    r.leave.pair = (r.pair.1, r.pair.2.tail) := rfl

end Returned

namespace Resolver

variable (index : Index) (modules : Modules)

mutual

def attributes (s : List String) (path : Path) (elements : List Expr) :
    Returned s (Outcome (List Attribute)) :=
  (each s path elements).map fun outcomes => (gather outcomes).map sortAttributes
termination_by ((untried index s).length, exprsWeight elements, 2)
decreasing_by
  apply Prod.Lex.right
  exact Prod.Lex.right _ (by decide)

def each (s : List String) (path : Path) : List Expr → Returned s (List (Outcome Attribute))
  | [] => .unchanged s []
  | x :: xs =>
      let first := element s path x
      .cons first (each first.expanding path xs)
termination_by elements => ((untried index s).length, exprsWeight elements, 1)
decreasing_by
  · apply Prod.Lex.right
    exact Prod.Lex.right' _ (weight_le_of_mem List.mem_cons_self) (by decide)
  · refine Prod.Lex.right' _ (untried_le_of_suffix first.kept) ?_
    exact Prod.Lex.left _ _ (exprsWeight_lt_cons x xs)

def element (s : List String) (path : Path) (x : Expr) : Returned s (Outcome Attribute) :=
  match _hp : elementParts x with
  | .error e => .unchanged s (.error [⟨path, e⟩])
  | .ok (name, value) =>
      match _hs : fieldSource value with
      | .error e => .unchanged s (.error [⟨path ++ [name], e⟩])
      | .ok (.inline elements) => field s (path ++ [name]) name elements
      | .ok (.builder b) => builder s (path ++ [name]) name b
termination_by ((untried index s).length, x.weight, 0)
decreasing_by
  · apply Prod.Lex.right
    exact Prod.Lex.left _ _
      (Nat.lt_trans (weight_of_fieldSource _hs) (weight_of_elementParts _hp))
  · apply Prod.Lex.right
    exact Prod.Lex.left _ _ (Nat.lt_of_le_of_lt (Nat.zero_le _) (weight_of_elementParts _hp))

def builder (s : List String) (path : Path) (name b : String) : Returned s (Outcome Attribute) :=
  match _hd : index.schema? b with
  | none => .unchanged s (.error [⟨path, .unresolvedReference b⟩])
  | some d =>
      if _hb : b ∈ s then .unchanged s (.error [⟨path, .cyclicReference b⟩])
      else match builderLiteral modules d with
        | none => .unchanged s (.error [⟨path, .schemaLiteralNotFound b⟩])
        | some l => (field (b :: s) path name l.elements).leave
termination_by ((untried index s).length, 0, 0)
decreasing_by
  exact Prod.Lex.left _ _ (untried_cons_lt _hd _hb)

def field (s : List String) (path : Path) (name : String) (elements : List Expr) :
    Returned s (Outcome Attribute) :=
  (match _hn : nestedSchema elements with
    | .error e => .unchanged s (.error [⟨path, e⟩])
    | .ok none => .unchanged s (.ok [])
    | .ok (some l) => attributes s path l.elements : Returned s (Outcome (List Attribute))).map
    (assemble path name elements)
termination_by ((untried index s).length, exprsWeight elements, 0)
decreasing_by
  apply Prod.Lex.right
  exact Prod.Lex.left _ _ (weight_of_nestedSchema _hn)

end

theorem each_pair {s : List String} {path : Path} {xs : List Expr}
    (h : ∀ x ∈ xs, (element index modules s path x).pair =
      (resolveElement index modules s path x, s)) :
    (each index modules s path xs).pair = (xs.map (resolveElement index modules s path), s) := by
  induction xs with
  | nil => rw [each]; rfl
  | cons x xs ih =>
      have hfirst := h x List.mem_cons_self
      have hleft : (element index modules s path x).expanding = s := congrArg Prod.snd hfirst
      have hrest : (each index modules (element index modules s path x).expanding path xs).pair =
          (xs.map (resolveElement index modules s path), s) := by
        rw [hleft]
        exact ih fun y hy => h y (List.mem_cons_of_mem x hy)
      rw [each, Returned.pair_cons, hfirst, hrest, List.map_cons]

theorem pair_eq :
    (∀ s path elements, (attributes index modules s path elements).pair =
      (resolveAttributes index modules s path elements, s)) ∧
    (∀ s path x, (element index modules s path x).pair =
      (resolveElement index modules s path x, s)) ∧
    (∀ s path name b, (builder index modules s path name b).pair =
      (resolveBuilder index modules s path name b, s)) ∧
    (∀ s path name elements, (field index modules s path name elements).pair =
      (buildAttribute index modules s path name elements, s)) := by
  refine resolution_induct index modules ?_ ?_ ?_ ?_
  · intro s path elements ih
    rw [attributes, resolveAttributes_eq, Returned.pair_map, each_pair index modules ih]
  · intro s path x hinline hbuilder
    rw [element, resolveElement_eq]
    split
    · next e hp => rw [hp]; rfl
    · next name value hp =>
        rw [hp]
        dsimp only
        split
        · next e hs => rw [hs]; rfl
        · next elements hs => rw [hs]; exact hinline name value elements hp hs
        · next b hs => rw [hs]; exact hbuilder name value b hp hs
  · intro s path name b ih
    rw [builder, resolveBuilder_eq]
    split
    · next hd => rw [hd]; rfl
    · next d hd =>
        rw [hd]
        dsimp only
        split
        · rfl
        · next hb =>
            cases hl : builderLiteral modules d with
            | none => rfl
            | some l =>
                dsimp only
                rw [Returned.pair_leave, ih d l hd hb hl, List.tail_cons]
  · intro s path name elements ih
    rw [field, buildAttribute_eq, Returned.pair_map]
    split
    · next e hn => rw [hn]; rfl
    · next hn => rw [hn]; rfl
    · next l hn => rw [hn, ih l hn]

end Resolver

variable (index : Index) (modules : Modules)

def resolveAt (path : Path) (elements : List Expr) : Outcome (List Attribute) :=
  (Resolver.attributes index modules [] path elements).result

theorem resolveAt_eq (path : Path) (elements : List Expr) :
    resolveAt index modules path elements =
      resolveAttributes index modules [] path elements :=
  congrArg Prod.fst ((Resolver.pair_eq index modules).1 [] path elements)

def resolve (elements : List Expr) : Outcome (List Attribute) :=
  resolveAt index modules [] elements

theorem resolve_nil : resolve index modules [] = .ok [] := by
  rw [resolve, resolveAt_eq, resolveAttributes_eq, List.map_nil]
  exact congrArg Except.ok List.mergeSort_nil

end ProviderManual.Schema
