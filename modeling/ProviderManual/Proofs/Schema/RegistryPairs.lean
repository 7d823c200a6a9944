import Mathlib.Data.List.Induction
import ProviderManual.Proofs.Schema.Registries

/-! The pairs of the two registry fields, in the preorder of the provider's body. -/

namespace ProviderManual.Schema

open ProviderManual.Source ProviderManual.Manual

def registryPair? : Node → Option (ResourceType × Expr)
  | .expr (.keyValue (.ident key) value) =>
      if key = registryField .datasource then some (.datasource, value)
      else if key = registryField .resource then some (.resource, value)
      else none
  | _ => none

def registryPairs (nodes : List Node) : List (ResourceType × Expr) :=
  nodes.filterMap registryPair?

def Occurs (type : ResourceType) (pairs : List (ResourceType × Expr)) : Prop :=
  ∃ value, (type, value) ∈ pairs

structure FirstPair (pairs : List (ResourceType × Expr)) (type : ResourceType)
    (before : List (ResourceType × Expr)) (value : Expr) : Prop where
  start : before ++ [(type, value)] <+: pairs
  first : ¬ Occurs type before

def LastPair (pairs : List (ResourceType × Expr)) (type : ResourceType) (value : Expr) : Prop :=
  ∃ earlier later, pairs = earlier ++ (type, value) :: later ∧ ¬ Occurs type later

section Pairs

variable {type : ResourceType} {value : Expr} {pairs xs ys : List (ResourceType × Expr)}

theorem occurs_append : Occurs type (xs ++ ys) ↔ Occurs type xs ∨ Occurs type ys := by
  simp only [Occurs, List.mem_append, exists_or]

theorem occurs_cons {p : ResourceType × Expr} :
    Occurs type (p :: xs) ↔ p.1 = type ∨ Occurs type xs := by
  obtain ⟨other, v⟩ := p
  simp [Occurs, exists_or, eq_comm]

theorem not_occurs_nil : ¬ Occurs type [] := by
  simp [Occurs]

def valuesOf (type : ResourceType) (pairs : List (ResourceType × Expr)) : List Expr :=
  pairs.filterMap fun p => if p.1 = type then some p.2 else none

theorem valuesOf_append : valuesOf type (xs ++ ys) = valuesOf type xs ++ valuesOf type ys :=
  List.filterMap_append

theorem valuesOf_cons_self : valuesOf type ((type, value) :: xs) = value :: valuesOf type xs :=
  List.filterMap_cons_some (if_pos rfl)

theorem valuesOf_eq_nil_iff : valuesOf type pairs = [] ↔ ¬ Occurs type pairs := by
  induction pairs with
  | nil => simp [valuesOf, not_occurs_nil]
  | cons p pairs ih =>
      rw [occurs_cons, not_or, ← ih]
      by_cases hp : p.1 = type
      · simp [valuesOf, hp]
      · simp [valuesOf, hp]

theorem lastPair_iff : LastPair pairs type value ↔ (valuesOf type pairs).getLast? = some value := by
  constructor
  · rintro ⟨earlier, later, rfl, hlater⟩
    rw [valuesOf_append, valuesOf_cons_self, valuesOf_eq_nil_iff.2 hlater, List.getLast?_concat]
  · intro h
    obtain ⟨values, hvalues⟩ := List.getLast?_eq_some_iff.1 h
    obtain ⟨earlier, rest, rfl, -, hrest⟩ := List.filterMap_eq_append_iff.1 hvalues
    obtain ⟨skipped, ⟨t, v⟩, later, rfl, -, hv, hlater⟩ := List.filterMap_eq_cons_iff.1 hrest
    obtain ⟨rfl, rfl⟩ : t = type ∧ v = value := by simpa using hv
    exact ⟨earlier ++ skipped, later, by simp, valuesOf_eq_nil_iff.1 hlater⟩

theorem LastPair.occurs (h : LastPair pairs type value) : Occurs type pairs := by
  obtain ⟨earlier, later, rfl, -⟩ := h
  exact ⟨value, by simp⟩

theorem LastPair.concat {p : ResourceType × Expr} (h : LastPair pairs type value)
    (hp : p.1 ≠ type) : LastPair (pairs ++ [p]) type value := by
  obtain ⟨earlier, later, rfl, hlater⟩ := h
  refine ⟨earlier, later ++ [p], by simp, fun hoccurs => ?_⟩
  rcases occurs_append.1 hoccurs with hlater' | hlast
  · exact hlater hlater'
  · exact (occurs_cons.1 hlast).elim hp not_occurs_nil

theorem exists_lastPair (h : Occurs type pairs) : ∃ value, LastPair pairs type value := by
  have hne : valuesOf type pairs ≠ [] := fun hnil => valuesOf_eq_nil_iff.1 hnil h
  exact ⟨_, lastPair_iff.2 (List.getLast?_eq_some_getLast hne)⟩

theorem exists_firstPair (h : ∀ type, Occurs type pairs) :
    ∃ type before value, FirstPair pairs type before value ∧ Occurs type.other before := by
  induction pairs using List.reverseRecOn with
  | nil => exact absurd (h .datasource) not_occurs_nil
  | append_singleton pairs p ih =>
      -- unless both occur already, `p` is the pair by which they do, and the first of its field
      by_cases hpairs : ∀ type, Occurs type pairs
      · obtain ⟨type, before, value, hfirst, hother⟩ := ih hpairs
        have hstart := hfirst.start.trans (List.prefix_append pairs [p])
        exact ⟨type, before, value, ⟨hstart, hfirst.first⟩, hother⟩
      · obtain ⟨type, htype⟩ := not_forall.1 hpairs
        have hp : p.1 = type := by
          rcases occurs_append.1 (h type) with hoccurs | hoccurs
          · exact absurd hoccurs htype
          · simpa [occurs_cons, not_occurs_nil] using hoccurs
        have hother : Occurs type.other pairs := by
          rcases occurs_append.1 (h type.other) with hoccurs | hoccurs
          · exact hoccurs
          · have hp' : p.1 = type.other := by simpa [occurs_cons, not_occurs_nil] using hoccurs
            exact absurd (hp.symm.trans hp') type.ne_other
        obtain ⟨t, value⟩ := p
        obtain rfl : t = type := hp
        exact ⟨t, pairs, value, ⟨List.prefix_refl _, htype⟩, hother⟩

end Pairs

section Nodes

variable {nodes searched beyond : List Node} {type : ResourceType} {value : Expr}
  {before : List (ResourceType × Expr)}

theorem assigned_eq (type : ResourceType) (n : Node) :
    assigned (registryField type) n =
      (registryPair? n).bind fun p => if p.1 = type then some p.2 else none := by
  have hne : registryField .resource ≠ registryField .datasource := by decide
  unfold registryPair?
  split
  · next key value =>
      rw [assigned_keyValue_ident]
      by_cases hdata : key = registryField .datasource
      · cases type <;> simp [hdata, hne.symm]
      · by_cases hresource : key = registryField .resource
        · cases type <;> simp [hresource, hne]
        · cases type <;> simp [hdata, hresource]
  · next hnode =>
      rw [assigned]
      · rfl
      · exact hnode

theorem assignedValues_eq (type : ResourceType) (nodes : List Node) :
    assignedValues (registryField type) nodes = valuesOf type (registryPairs nodes) := by
  rw [assignedValues, valuesOf, registryPairs, List.filterMap_filterMap]
  exact congrArg (fun f => nodes.filterMap f) (funext (assigned_eq type))

theorem lastValue_eq_some_iff :
    lastValue type nodes = some value ↔ LastPair (registryPairs nodes) type value := by
  rw [lastValue, assignedValues_eq, lastPair_iff]

theorem bothAssigned_iff : BothAssigned nodes ↔ ∀ type, Occurs type (registryPairs nodes) := by
  simp only [BothAssigned, assignedValues_eq, Ne, valuesOf_eq_nil_iff, Classical.not_not]

theorem SearchedPart.occurs (h : SearchedPart nodes searched beyond)
    (hboth : ∀ type, Occurs type (registryPairs nodes)) (type : ResourceType) :
    Occurs type (registryPairs searched) := by
  rcases h.ends with hbeyond | hsearched
  · rw [h.whole, hbeyond, List.append_nil] at hboth
    exact hboth type
  · exact bothAssigned_iff.1 hsearched type

theorem SearchedPart.eq_of_not_occurs (h : SearchedPart nodes searched beyond)
    (hnone : ¬ Occurs type (registryPairs nodes)) : searched = nodes := by
  rcases h.ends with hbeyond | hboth
  · rw [h.whole, hbeyond, List.append_nil]
  · have hoccurs : Occurs type (registryPairs searched) := bothAssigned_iff.1 hboth type
    refine absurd ?_ hnone
    rw [h.whole, registryPairs, List.filterMap_append]
    exact occurs_append.2 (.inl hoccurs)

theorem SearchedPart.registryPairs_eq (h : SearchedPart nodes searched beyond)
    (hfirst : FirstPair (registryPairs nodes) type before value)
    (hother : Occurs type.other before) :
    registryPairs searched = before ++ [(type, value)] := by
  obtain ⟨after, hpairs⟩ := hfirst.start
  -- `start` is the part of the body that holds these pairs and no more
  obtain ⟨start, rest, hnodes, hstart, -⟩ := List.filterMap_eq_append_iff.1 hpairs.symm
  have hboth : BothAssigned start := by
    refine bothAssigned_iff.2 fun t => ?_
    rw [registryPairs, hstart, occurs_append]
    rcases ResourceType.eq_or_eq_other t type with rfl | rfl
    · exact .inr ⟨value, List.mem_singleton_self _⟩
    · exact .inl hother
  have hprefix : start <+: nodes := ⟨rest, hnodes.symm⟩
  rcases List.prefix_or_prefix_of_prefix hprefix ⟨beyond, h.whole.symm⟩ with hle | hle
  · rw [← h.shortest start hle hboth]
    exact hstart
  · have hoccurs : Occurs type (registryPairs searched) :=
      h.occurs (bothAssigned_iff.1 (hboth.mono hprefix)) type
    have hsearched : registryPairs searched <+: before ++ [(type, value)] := by
      rw [← hstart]
      exact hle.filterMap registryPair?
    rcases List.prefix_concat_iff.1 hsearched with heq | ⟨_, hbefore⟩
    · exact heq
    · refine absurd ?_ hfirst.first
      rw [← hbefore]
      exact occurs_append.2 (.inl hoccurs)

end Nodes

/-- Of two fields that both occur, the one whose first pair comes later is read from it, and the other
from its last pair before it. -/
theorem get_extract_of_registryPairs (provider : Func) :
    ((∀ type, Occurs type (registryPairs provider.nodes)) →
      ∃ type before value last, FirstPair (registryPairs provider.nodes) type before value ∧
        LastPair before type.other last) ∧
    (∀ type before value last, FirstPair (registryPairs provider.nodes) type before value →
      LastPair before type.other last →
      (Registry.extract provider).get type = constructorNames type (some value) ∧
      (Registry.extract provider).get type.other = constructorNames type.other (some last)) ∧
    (∀ type, Occurs type (registryPairs provider.nodes) →
      ¬ Occurs type.other (registryPairs provider.nodes) →
      ∃ last, LastPair (registryPairs provider.nodes) type last ∧
        (Registry.extract provider).get type = constructorNames type (some last)) ∧
    (∀ type, ¬ Occurs type (registryPairs provider.nodes) →
      ∃ e, (Registry.extract provider).get type = .error e ∧ e.type = type ∧
        e.fault.message = "field not found in provider") ∧
    ∀ type before value after,
      registryPairs provider.nodes = before ++ (type, value) :: after →
      ¬ Occurs type before → ¬ Occurs type after →
      (Registry.extract provider).get type = constructorNames type (some value) := by
  obtain ⟨searched, beyond, hpart, hfound⟩ := exists_searchedPart provider
  have hget := get_extract hfound
  refine ⟨fun hboth => ?_, fun type before value last hfirst hlast => ?_,
    fun type hoccurs hother => ?_, fun type hnone => ?_,
    fun type before value after hpairs hbefore hafter => ?_⟩
  · obtain ⟨type, before, value, hfirst, hother⟩ := exists_firstPair hboth
    obtain ⟨last, hlast⟩ := exists_lastPair hother
    exact ⟨type, before, value, last, hfirst, hlast⟩
  · have hsearched := hpart.registryPairs_eq hfirst (LastPair.occurs hlast)
    have hvalue : LastPair (registryPairs searched) type value :=
      ⟨before, [], hsearched, not_occurs_nil⟩
    have hlast' : LastPair (registryPairs searched) type.other last := by
      rw [hsearched]
      exact LastPair.concat hlast type.ne_other
    rw [hget, hget, lastValue_eq_some_iff.2 hvalue, lastValue_eq_some_iff.2 hlast']
    exact ⟨rfl, rfl⟩
  · obtain ⟨last, hlast⟩ := exists_lastPair hoccurs
    rw [hpart.eq_of_not_occurs hother] at hget
    exact ⟨last, hlast, by rw [hget, lastValue_eq_some_iff.2 hlast]⟩
  · have hvalue : lastValue type searched = none := by
      rw [hpart.eq_of_not_occurs hnone, lastValue, assignedValues_eq, valuesOf_eq_nil_iff.2 hnone]
      rfl
    rw [hget, hvalue]
    exact ⟨_, rfl, rfl, rfl⟩
  · -- with one value in the whole body, none of the field is left beyond the searched part
    have hvalues : assignedValues (registryField type) provider.nodes = [value] := by
      rw [assignedValues_eq, hpairs, valuesOf_append, valuesOf_cons_self,
        valuesOf_eq_nil_iff.2 hbefore, valuesOf_eq_nil_iff.2 hafter, List.nil_append]
    have hbeyond : assignedValues (registryField type) beyond = [] :=
      hpart.assignedValues_beyond (by rw [hvalues]; exact Nat.le_refl 1)
    rw [hget, hpart.lastValue_eq hbeyond, lastValue, hvalues]
    rfl

def diskInsideResources : Expr :=
  .composite none [.keyValue (.ident "DataSourcesMap") (entriesOf "acme_disk" "disk")]

def diskInsideNet : Func :=
  { diskAndNet with
    body := [.ret [.composite none [
      .keyValue (.ident "ResourcesMap") (entriesOf "acme_net" "net"),
      .keyValue (.ident "ResourcesMap") diskInsideResources,
      .keyValue (.ident "ResourcesMap") (entriesOf "acme_dns" "dns")]]] }

theorem disk_read_inside_resources :
    FirstPair (registryPairs diskInsideNet.nodes) .datasource
      [(.resource, entriesOf "acme_net" "net"), (.resource, diskInsideResources)]
      (entriesOf "acme_disk" "disk") ∧
    (Registry.extract diskInsideNet).get .datasource =
      constructorNames .datasource (some (entriesOf "acme_disk" "disk")) ∧
    (Registry.extract diskInsideNet).get .resource =
      constructorNames .resource (some diskInsideResources) := by
  have hfirst : FirstPair (registryPairs diskInsideNet.nodes) .datasource
      [(.resource, entriesOf "acme_net" "net"), (.resource, diskInsideResources)]
      (entriesOf "acme_disk" "disk") :=
    ⟨⟨[(.resource, entriesOf "acme_dns" "dns")], rfl⟩, by simp [Occurs]⟩
  have hlast : LastPair [(.resource, entriesOf "acme_net" "net"), (.resource, diskInsideResources)]
      (ResourceType.datasource.other) diskInsideResources :=
    ⟨[(.resource, entriesOf "acme_net" "net")], [], rfl, not_occurs_nil⟩
  have hget := (get_extract_of_registryPairs diskInsideNet).2.1 _ _ _ _ hfirst hlast
  exact ⟨hfirst, hget.1, hget.2⟩

end ProviderManual.Schema
