import ProviderManual.Proofs.Schema.Outcome
import ProviderManual.Schema.Resolver

/-! The elements of a schema literal, each resolved on its own. -/

namespace ProviderManual.Schema

open ProviderManual.Source ProviderManual.Manual

def elementName? (x : Expr) : Option String :=
  (elementParts x).toOption.map Prod.fst

theorem filterMap_toOption_results {α : Type} (as : List α) :
    (as.map .ok : List (Outcome α)).filterMap Except.toOption = as := by
  rw [List.filterMap_map]
  exact List.filterMap_some

theorem eq_error_errorsOf {α : Type} {o : Outcome α} (h : ∃ es, o = .error es) :
    o = .error (errorsOf o) := by
  obtain ⟨es, rfl⟩ := h
  rfl

section Calls

variable {index : Index} {modules : Modules} {s : List String} {path : Path}

theorem elementName?_of_resolveElement {x : Expr} {a : Attribute}
    (h : resolveElement index modules s path x = .ok a) : elementName? x = some a.name := by
  obtain ⟨name, value, hp, h⟩ := resolveElement_eq_ok_iff.1 h
  have hname : a.name = name := by
    rcases h with ⟨fields, -, h⟩ | ⟨b, -, h⟩
    · exact (buildAttribute_eq_ok_iff.1 h).1
    · obtain ⟨-, d, l, -, -, h⟩ := resolveBuilder_eq_ok_iff.1 h
      exact (buildAttribute_eq_ok_iff.1 h).1
  rw [elementName?, hp, hname]
  rfl

theorem filterMap_elementName? {elements : List Expr} {as : List Attribute}
    (h : elements.map (resolveElement index modules s path) = as.map .ok) :
    elements.filterMap elementName? = as.map Attribute.name := by
  induction elements generalizing as with
  | nil =>
      obtain rfl := List.map_eq_nil_iff.1 h.symm
      rfl
  | cons x xs ih =>
      cases as with
      | nil => simp at h
      | cons a as =>
          obtain ⟨hx, hxs⟩ := List.cons.inj h
          rw [List.filterMap_cons_some (elementName?_of_resolveElement hx), ih hxs, List.map_cons]

theorem resolveAttributes_singleton (x : Expr) :
    resolveAttributes index modules s path [x] =
      (resolveElement index modules s path x).map fun a => [a] := by
  rw [resolveAttributes_eq, List.map_singleton]
  cases resolveElement index modules s path x with
  | ok a =>
      have hsort : sortAttributes [a] = [a] := List.mergeSort_singleton a
      rw [gather_ok_cons]
      exact congrArg Except.ok hsort
  | error es =>
      rw [gather_error_cons]
      exact congrArg Except.error (List.append_nil es)

theorem results_of_parts {elements : List Expr} {parts : List (List Attribute)}
    (h : elements.map (fun x => resolveAttributes index modules s path [x]) = parts.map .ok) :
    elements.map (resolveElement index modules s path) = parts.flatten.map .ok := by
  induction elements generalizing parts with
  | nil =>
      obtain rfl := List.map_eq_nil_iff.1 h.symm
      rfl
  | cons x xs ih =>
      cases parts with
      | nil => simp at h
      | cons part parts =>
          obtain ⟨hx, hxs⟩ := List.cons.inj h
          obtain ⟨a, ha, rfl⟩ := (map_eq_ok_iff _ _ _).1 ((resolveAttributes_singleton x).symm.trans hx)
          rw [List.map_cons, ha, ih hxs]
          rfl

theorem exists_resolveAttributes_singleton_eq_error_iff {x : Expr} :
    (∃ es, resolveAttributes index modules s path [x] = .error es) ↔
      ∃ es, resolveElement index modules s path x = .error es := by
  simp only [exists_resolveAttributes_eq_error_iff, List.mem_singleton, exists_eq_left]

section Order

variable {elements others : List Expr} (hperm : others.Perm elements)

include hperm

theorem exists_resolveAttributes_eq_ok_perm_iff :
    (∃ as, resolveAttributes index modules s path others = .ok as) ↔
      ∃ as, resolveAttributes index modules s path elements = .ok as := by
  simp only [exists_resolveAttributes_eq_ok_iff, hperm.mem_iff]

theorem exists_resolveAttributes_eq_error_perm_iff :
    (∃ es, resolveAttributes index modules s path others = .error es) ↔
      ∃ es, resolveAttributes index modules s path elements = .error es := by
  simp only [exists_resolveAttributes_eq_error_iff, hperm.mem_iff]

theorem resolveAttributes_perm (hn : (elements.filterMap elementName?).Nodup)
    {as : List Attribute} (h : resolveAttributes index modules s path elements = .ok as) :
    resolveAttributes index modules s path others = .ok as := by
  obtain ⟨as', has'⟩ := (exists_resolveAttributes_eq_ok_perm_iff hperm).2 ⟨as, h⟩
  obtain ⟨bs, hbs, rfl⟩ := resolveAttributes_eq_ok_iff.1 h
  obtain ⟨cs, hcs, rfl⟩ := resolveAttributes_eq_ok_iff.1 has'
  have hresults : cs.Perm bs := by
    have hmap := (hperm.map (resolveElement index modules s path)).filterMap Except.toOption
    rwa [hbs, hcs, filterMap_toOption_results, filterMap_toOption_results] at hmap
  have hnames : (bs.map Attribute.name).Nodup := filterMap_elementName? hbs ▸ hn
  have hsort : sortAttributes bs = sortAttributes cs :=
    Text.sortOn_eq_of_perm hresults.symm hnames
  rw [has', hsort]

end Order

end Calls

def elementErrors (index : Index) (modules : Modules) (path : Path) (x : Expr) :
    List ResolveError :=
  errorsOf (resolveAt index modules path [x])

theorem elementErrors_eq (index : Index) (modules : Modules) (path : Path) (x : Expr) :
    elementErrors index modules path x = errorsOf (resolveElement index modules [] path x) := by
  rw [elementErrors, resolveAt_eq, resolveAttributes_singleton, errorsOf_map]

theorem resolveAttributes_eq_error {index : Index} {modules : Modules} {path : Path}
    {elements : List Expr} (h : ∃ es, resolveAttributes index modules [] path elements = .error es) :
    resolveAttributes index modules [] path elements =
      .error (elements.map (elementErrors index modules path)).flatten := by
  have herrors : errorsOf (resolveAttributes index modules [] path elements) =
      (elements.map (elementErrors index modules path)).flatten := by
    rw [errorsOf_attributes, List.flatMap_def]
    exact congrArg List.flatten (List.map_congr_left fun x _ =>
      (elementErrors_eq index modules path x).symm)
  rw [← herrors]
  exact eq_error_errorsOf h

/-- A literal resolves to the attributes of its elements, each resolved alone, sorted by name; or to all
their errors in turn. -/
theorem resolves_element_by_element (index : Index) (modules : Modules) (path : Path)
    (elements : List Expr) :
    (∀ parts : List (List Attribute),
      elements.map (fun x => resolveAt index modules path [x]) = parts.map .ok →
      ∃ as, resolveAt index modules path elements = .ok as ∧
        as = sortAttributes parts.flatten ∧ as.Perm parts.flatten ∧
        as.length = elements.length) ∧
    ((∃ x ∈ elements, ∃ es, resolveAt index modules path [x] = .error es) →
      resolveAt index modules path elements =
        .error (elements.map (elementErrors index modules path)).flatten) ∧
    ∀ others, others.Perm elements →
      ((∃ as, resolveAt index modules path others = .ok as) ↔
        ∃ as, resolveAt index modules path elements = .ok as) ∧
      ((elements.filterMap elementName?).Nodup → ∀ as,
        resolveAt index modules path elements = .ok as →
        resolveAt index modules path others = .ok as) ∧
      ∀ es, resolveAt index modules path elements = .error es →
        es = (elements.map (elementErrors index modules path)).flatten ∧
        resolveAt index modules path others =
          .error (others.map (elementErrors index modules path)).flatten ∧
        (others.map (elementErrors index modules path)).Perm
          (elements.map (elementErrors index modules path)) := by
  simp only [resolveAt_eq]
  refine ⟨fun parts hparts => ?_, ?_, fun others hperm => ⟨?_, ?_, ?_⟩⟩
  · have hresults := results_of_parts hparts
    have hperm : (sortAttributes parts.flatten).Perm parts.flatten := Text.sortOn_perm _ _
    have hlength : elements.length = parts.flatten.length := by
      simpa only [List.length_map] using congrArg List.length hresults
    exact ⟨_, resolveAttributes_eq_ok_iff.2 ⟨_, hresults, rfl⟩, rfl, hperm,
      hperm.length_eq.trans hlength.symm⟩
  · rintro ⟨x, hx, hes⟩
    have helement := exists_resolveAttributes_singleton_eq_error_iff.1 hes
    exact resolveAttributes_eq_error (exists_resolveAttributes_eq_error_iff.2 ⟨x, hx, helement⟩)
  · exact exists_resolveAttributes_eq_ok_perm_iff hperm
  · exact fun hn as has => resolveAttributes_perm hperm hn has
  · intro es hes
    have hothers := (exists_resolveAttributes_eq_error_perm_iff hperm).2 ⟨es, hes⟩
    have hgroups := resolveAttributes_eq_error ⟨es, hes⟩
    exact ⟨Except.error.inj (hes.symm.trans hgroups), resolveAttributes_eq_error hothers,
      hperm.map _⟩

end ProviderManual.Schema
