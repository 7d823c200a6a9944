import ProviderManual.Proofs.Source.RenamedKeys

/-! The search for the two registries ends with the first node by which both are assigned. -/

namespace ProviderManual.Manual

def ResourceType.other : ResourceType → ResourceType
  | .datasource => .resource
  | .resource => .datasource

theorem ResourceType.eq_or_eq_other (t type : ResourceType) : t = type ∨ t = type.other := by
  cases t <;> cases type <;> simp [ResourceType.other]

theorem ResourceType.ne_other (type : ResourceType) : type ≠ type.other := by
  cases type <;> decide

end ProviderManual.Manual

namespace ProviderManual.Schema

open ProviderManual.Source ProviderManual.Manual

def Found.get (f : Found) : ResourceType → Option Expr
  | .datasource => f.dataSources
  | .resource => f.resources

def lastValue (type : ResourceType) (nodes : List Node) : Option Expr :=
  (assignedValues (registryField type) nodes).getLast?

def BothAssigned (nodes : List Node) : Prop :=
  ∀ type, assignedValues (registryField type) nodes ≠ []

/-- The nodes that are searched and those that come too late: the search ends with the first node by
which both fields have been assigned. -/
structure SearchedPart (nodes searched beyond : List Node) : Prop where
  whole : nodes = searched ++ beyond
  ends : beyond = [] ∨ BothAssigned searched
  shortest : ∀ start, start <+: searched → BothAssigned start → start = searched

def foundIn (nodes : List Node) : Found :=
  ⟨lastValue .datasource nodes, lastValue .resource nodes⟩

theorem get_foundIn (nodes : List Node) (type : ResourceType) :
    (foundIn nodes).get type = lastValue type nodes := by
  cases type <;> rfl

theorem lastValue_concat (type : ResourceType) (nodes : List Node) (n : Node) :
    lastValue type (nodes ++ [n]) =
      (assigned (registryField type) n).or (lastValue type nodes) := by
  rw [lastValue, assignedValues_append, assignedValues_cons, assignedValues_nil, List.append_nil,
    List.getLast?_append]
  cases assigned (registryField type) n <;> rfl

theorem see_foundIn (nodes : List Node) (n : Node) :
    (foundIn nodes).see n = foundIn (nodes ++ [n]) := by
  rw [foundIn, foundIn, lastValue_concat, lastValue_concat]
  rfl

theorem isComplete_foundIn_iff {nodes : List Node} :
    (foundIn nodes).isComplete = true ↔ BothAssigned nodes := by
  have hsome (type : ResourceType) :
      (lastValue type nodes).isSome = true ↔ assignedValues (registryField type) nodes ≠ [] := by
    rw [lastValue, List.getLast?_isSome]
  rw [Found.isComplete, Bool.and_eq_true]
  constructor
  · rintro ⟨hdataSources, hresources⟩ type
    cases type with
    | datasource => exact (hsome .datasource).1 hdataSources
    | resource => exact (hsome .resource).1 hresources
  · intro h
    exact ⟨(hsome .datasource).2 (h .datasource), (hsome .resource).2 (h .resource)⟩

theorem BothAssigned.mono {start nodes : List Node} (h : BothAssigned start)
    (hstart : start <+: nodes) : BothAssigned nodes := by
  obtain ⟨rest, rfl⟩ := hstart
  intro type hnil
  rw [assignedValues_append] at hnil
  exact h type (List.append_eq_nil_iff.1 hnil).1

theorem exists_searchedPart_of_visitAll {before rest : List Node} (hbefore : ¬ BothAssigned before) :
    ∃ searched beyond, SearchedPart (before ++ rest) searched beyond ∧
      (visitAll Found.visit rest (foundIn before)).state = foundIn searched := by
  -- `before` grows by the node visited; as long as it leaves a field unassigned the search goes on
  induction rest generalizing before with
  | nil =>
      have hshortest : ∀ start, start <+: before → BothAssigned start → start = before :=
        fun start hstart h => absurd (h.mono hstart) hbefore
      exact ⟨before, [], ⟨rfl, .inl rfl, hshortest⟩, rfl⟩
  | cons n rest ih =>
      have hvisit : Found.visit n (foundIn before) =
          if (foundIn (before ++ [n])).isComplete then .stop () (foundIn (before ++ [n]))
          else .go (foundIn (before ++ [n])) := by
        rw [← see_foundIn]
        rfl
      rw [visitAll, hvisit]
      by_cases hboth : BothAssigned (before ++ [n])
      · have hshortest : ∀ start, start <+: before ++ [n] → BothAssigned start →
            start = before ++ [n] := by
          intro start hstart h
          rcases List.prefix_concat_iff.1 hstart with heq | hstart
          · exact heq
          · exact absurd (h.mono hstart) hbefore
        rw [if_pos (isComplete_foundIn_iff.2 hboth)]
        exact ⟨before ++ [n], rest, ⟨by simp, .inr hboth, hshortest⟩, rfl⟩
      · rw [if_neg (mt isComplete_foundIn_iff.1 hboth)]
        obtain ⟨searched, beyond, hpart, hstate⟩ := ih hboth
        rw [List.append_assoc] at hpart
        exact ⟨searched, beyond, hpart, hstate⟩

theorem exists_searchedPart (provider : Func) :
    ∃ searched beyond, SearchedPart provider.nodes searched beyond ∧
      findRegistries provider = foundIn searched := by
  have hnone : ¬ BothAssigned [] := fun h => h .datasource rfl
  rw [findRegistries, walkAll_eq]
  exact exists_searchedPart_of_visitAll hnone

theorem get_extract {provider : Func} {nodes : List Node}
    (h : findRegistries provider = foundIn nodes) (type : ResourceType) :
    (Registry.extract provider).get type = constructorNames type (lastValue type nodes) := by
  rw [← get_foundIn, ← h]
  cases type <;> rfl

theorem SearchedPart.lastValue_eq {nodes searched beyond : List Node} {type : ResourceType}
    (h : SearchedPart nodes searched beyond)
    (hbeyond : assignedValues (registryField type) beyond = []) :
    lastValue type searched = lastValue type nodes := by
  rw [lastValue, lastValue, h.whole, assignedValues_append, hbeyond, List.append_nil]

theorem SearchedPart.assignedValues_beyond {nodes searched beyond : List Node} {type : ResourceType}
    (h : SearchedPart nodes searched beyond)
    (hone : (assignedValues (registryField type) nodes).length ≤ 1) :
    assignedValues (registryField type) beyond = [] := by
  rcases h.ends with hbeyond | hboth
  · rw [hbeyond, assignedValues_nil]
  · have hsearched : 0 < (assignedValues (registryField type) searched).length :=
      List.length_pos_iff.2 (hboth type)
    rw [h.whole, assignedValues_append, List.length_append] at hone
    exact List.length_eq_zero_iff.1 (by omega)

theorem registryField_other_ne (type : ResourceType) :
    registryField type.other ≠ registryField type := by
  cases type <;> decide

/-- Each registry is read from the last pair of its field in the part of the body that is searched, so
the other field matters only by ending the search. -/
theorem get_extract_renameKey_other (provider : Func) (type : ResourceType) {key : String}
    (hkey : ∀ t, key ≠ registryField t) :
    ∃ searched beyond, SearchedPart provider.nodes searched beyond ∧
      (Registry.extract provider).get type = constructorNames type (lastValue type searched) ∧
      (Registry.extract (provider.renameKey (registryField type.other) key)).get type =
        constructorNames type ((lastValue type provider.nodes).map
          (Expr.renameKey (registryField type.other) key)) ∧
      (Registry.extract (provider.renameKey (registryField type.other) key)).get type.other =
        .error ⟨type.other, .missing⟩ ∧
      (assignedValues (registryField type) beyond = [] →
        (∀ value, lastValue type searched = some value →
          assignedValues (registryField type.other) value.nodes = []) →
        (Registry.extract (provider.renameKey (registryField type.other) key)).get type =
          (Registry.extract provider).get type) := by
  have hother := registryField_other_ne type
  obtain ⟨searched, beyond, hpart, hfound⟩ := exists_searchedPart provider
  -- the other field is assigned nowhere any more, so all of the renamed body is searched
  obtain ⟨searched', beyond', hpart', hfound'⟩ :=
    exists_searchedPart (provider.renameKey (registryField type.other) key)
  have hnone : assignedValues (registryField type.other)
      (provider.renameKey (registryField type.other) key).nodes = [] :=
    provider.assignedValues_renameKey_old (hkey type.other)
  have hsearched' : assignedValues (registryField type.other) searched' = [] := by
    rw [hpart'.whole, assignedValues_append] at hnone
    exact (List.append_eq_nil_iff.1 hnone).1
  have hwhole' : searched' = (provider.renameKey (registryField type.other) key).nodes := by
    rcases hpart'.ends with hbeyond | hboth
    · rw [hpart'.whole, hbeyond, List.append_nil]
    · exact absurd hsearched' (hboth type.other)
  have hlast' : lastValue type searched' = (lastValue type provider.nodes).map
      (Expr.renameKey (registryField type.other) key) := by
    rw [hwhole', lastValue, provider.assignedValues_renameKey (hkey type) hother, List.getLast?_map]
    rfl
  have hget := get_extract hfound type
  have hget' := get_extract hfound' type
  rw [hlast'] at hget'
  refine ⟨searched, beyond, hpart, hget, hget', ?_, fun hbeyond hvalue => ?_⟩
  · rw [get_extract hfound' type.other, lastValue, hsearched']
    rfl
  · rw [hget', hget, ← hpart.lastValue_eq hbeyond]
    cases hv : lastValue type searched with
    | none => rfl
    | some value =>
        have hself : value.renameKey (registryField type.other) key = value :=
          value.renameKey_eq_self (assignedValues_eq_nil_iff.1 (hvalue value hv))
        rw [Option.map_some, hself]

def entriesOf (name constructor : String) : Expr :=
  .composite none
    [.keyValue (.basicLit .string ("\x60" ++ name ++ "\x60")) (.call (.ident constructor) [])]

def diskAndNet : Func where
  name := "Provider"
  doc := ""
  line := 1
  results := [.selector (.ident "terraform") "ResourceProvider"]
  body := [.ret [.composite none [
    .keyValue (.ident "DataSourcesMap") (entriesOf "acme_disk" "disk"),
    .keyValue (.ident "ResourcesMap") (entriesOf "acme_net" "net")]]]

theorem disk_kept_without_net :
    (∀ t, "Resources" ≠ registryField t) ∧
    (Registry.extract (diskAndNet.renameKey "ResourcesMap" "Resources")).get .datasource =
      (Registry.extract diskAndNet).get .datasource := by
  have hkey : ∀ t, "Resources" ≠ registryField t := by
    intro t
    cases t <;> decide
  obtain ⟨searched, beyond, hpart, -, -, -, hsame⟩ :=
    get_extract_renameKey_other diskAndNet .datasource hkey
  have hbeyond : assignedValues (registryField .datasource) beyond = [] :=
    hpart.assignedValues_beyond (Nat.le_refl 1)
  refine ⟨hkey, hsame hbeyond fun value hvalue => ?_⟩
  rw [hpart.lastValue_eq hbeyond] at hvalue
  obtain rfl : entriesOf "acme_disk" "disk" = value := Option.some.inj hvalue
  rfl

def diskThenNet : Func :=
  { diskAndNet with
    body := [
      .assign [.ident "p"] [.composite none [
        .keyValue (.ident "DataSourcesMap") (entriesOf "acme_disk" "disk"),
        .keyValue (.ident "ResourcesMap") (.composite none [])]],
      .assign [.ident "p"] [.composite none [
        .keyValue (.ident "DataSourcesMap") (entriesOf "acme_net" "net")]]] }

def pairInDisk : Func :=
  { diskAndNet with
    body := [.ret [.composite none [
      .keyValue (.ident "DataSourcesMap") (.composite none [
        .keyValue (.ident "ResourcesMap") (.call (.ident "disk") [])])]]] }

theorem dataSources_depend_on_resources :
    (∀ t, "Resources" ≠ registryField t) ∧
    (∀ value ∈ assignedValues "ResourcesMap" diskThenNet.nodes,
      assignedValues "DataSourcesMap" value.nodes = []) ∧
    (Registry.extract (diskThenNet.renameKey "ResourcesMap" "Resources")).get .datasource ≠
      (Registry.extract diskThenNet).get .datasource ∧
    (∀ value ∈ assignedValues "ResourcesMap" pairInDisk.nodes,
      assignedValues "DataSourcesMap" value.nodes = []) ∧
    (Registry.extract (pairInDisk.renameKey "ResourcesMap" "Resources")).get .datasource ≠
      (Registry.extract pairInDisk).get .datasource := by
  refine ⟨?_, ?_, ?_, ?_, ?_⟩
  · intro t
    cases t <;> decide
  · intro value hvalue
    obtain rfl : value = .composite none [] := List.mem_singleton.1 hvalue
    rfl
  · -- a search for one field alone goes on to the second data source
    exact ne_of_apply_ne (fun entries => entries.toOption.bind (·.get? "acme_disk"))
      (by decide +kernel)
  · intro value hvalue
    obtain rfl : value = .call (.ident "disk") [] := List.mem_singleton.1 hvalue
    rfl
  · intro hsame
    have herror :
        (Registry.extract (pairInDisk.renameKey "ResourcesMap" "Resources")).error? .datasource =
          (Registry.extract pairInDisk).error? .datasource := by
      rw [Registry.error?, Registry.error?, hsame]
    exact absurd herror (by decide +kernel)

end ProviderManual.Schema
