import Mathlib.Data.List.Sort
import ProviderManual.Proofs.Manual.Report

/-! A selection without names and the selection of all registered names are one. -/

namespace ProviderManual.Text

theorem eq_of_pairwise_bytesLt {xs ys : List String} (hx : xs.Pairwise BytesLt)
    (hy : ys.Pairwise BytesLt) (h : ∀ name, name ∈ xs ↔ name ∈ ys) : xs = ys := by
  have : Std.Irrefl BytesLt := ⟨BytesLt.irrefl⟩
  have : Std.Antisymm BytesLt := ⟨fun a b hab hba => absurd (hab.trans hba) (BytesLt.irrefl a)⟩
  exact hx.eq_of_mem_iff hy h

theorem Table.pairwise_names {α : Type} (t : Table α) : t.names.Pairwise BytesLt :=
  List.pairwise_map.2 t.ascending

end ProviderManual.Text

namespace ProviderManual.Schema.Registry

open ProviderManual.Manual

def namesOf (r : Registry) (type : ResourceType) : List String :=
  (r.entries? type).elim [] Text.Table.names

def registeredNames (r : Registry) (types : List ResourceType) : List String :=
  Text.sortOn id (types.flatMap r.namesOf).eraseDups

variable {r : Registry} {types : List ResourceType} {type : ResourceType} {name : String}

theorem mem_namesOf_iff : name ∈ r.namesOf type ↔ r.Registers type name := by
  unfold namesOf Registers entries?
  cases r.get type with
  | error e => simp [Except.toOption]
  | ok entries => simp [Except.toOption]

theorem pairwise_namesOf (r : Registry) (type : ResourceType) :
    (r.namesOf type).Pairwise Text.BytesLt := by
  unfold namesOf
  cases r.entries? type with
  | none => exact List.Pairwise.nil
  | some entries => exact entries.pairwise_names

theorem mem_registeredNames_iff :
    name ∈ r.registeredNames types ↔ ∃ type ∈ types, r.Registers type name := by
  rw [registeredNames, (Text.sortOn_perm id _).mem_iff, List.mem_eraseDups, List.mem_flatMap]
  simp only [mem_namesOf_iff]

theorem pairwise_registeredNames (r : Registry) (types : List ResourceType) :
    (r.registeredNames types).Pairwise Text.BytesLt :=
  Text.pairwise_bytesLt_sortOn ((List.map_id _).symm ▸ nodup_eraseDups _)

theorem nodup_registeredNames (r : Registry) (types : List ResourceType) :
    (r.registeredNames types).Nodup := by
  refine (pairwise_registeredNames r types).imp ?_
  rintro a _ hlt rfl
  exact Text.BytesLt.irrefl a hlt

theorem filter_registeredNames (h : type ∈ types) :
    (r.registeredNames types).filter (r.Registers type) = r.namesOf type := by
  refine Text.eq_of_pairwise_bytesLt ((pairwise_registeredNames r types).filter _)
    (pairwise_namesOf r type) fun name => ?_
  rw [List.mem_filter, mem_registeredNames_iff, mem_namesOf_iff, decide_eq_true_eq]
  exact ⟨And.right, fun hname => ⟨⟨type, h, hname⟩, hname⟩⟩

end ProviderManual.Schema.Registry

namespace ProviderManual.Manual

open ProviderManual.Source ProviderManual.Schema

theorem firstOccurrences_of_nodup {names : List String} (h : names.Nodup) :
    firstOccurrences names = names := by
  induction names with
  | nil => rfl
  | cons name names ih =>
      obtain ⟨hname, hnames⟩ := List.nodup_cons.1 h
      rw [firstOccurrences, ih hnames, List.filter_eq_self.2]
      intro other hother
      exact decide_eq_true fun heq => hname (heq ▸ hother)

section Selections

variable (r : Registry)

theorem allTargets_eq (type : ResourceType) :
    allTargets r type = (r.namesOf type).map fun name => targetOf r (type, name) := by
  have hruns : (allTargets r type).map Target.run = (r.namesOf type).map fun name => (type, name) := by
    rw [runs_allTargets, Registry.namesOf]
    cases r.entries? type <;> rfl
  have hself : (allTargets r type).map (targetOf r ∘ Target.run) = allTargets r type :=
    (List.map_congr_left fun t ht => targetOf_run_of_mem_allTargets ht).trans (List.map_id _)
  rw [← hself, ← List.map_map, hruns, List.map_map]
  rfl

theorem registeredTargets_registeredNames {types : List ResourceType} {type : ResourceType}
    (h : type ∈ types) :
    registeredTargets r (r.registeredNames types) type = registeredTargets r [] type := by
  have hall : registeredTargets r [] type = allTargets r type := if_pos rfl
  by_cases hnames : r.registeredNames types = []
  · rw [hnames]
  · rw [hall, registeredTargets, if_neg hnames,
      firstOccurrences_of_nodup (Registry.nodup_registeredNames r types), namedTargets_eq,
      Registry.filter_registeredNames h, allTargets_eq]

theorem unknownRuns_registeredNames (types : List ResourceType) :
    unknownRuns r types (r.registeredNames types) = [] := by
  refine List.eq_nil_iff_forall_not_mem.2 fun run hrun => ?_
  obtain ⟨-, -, hname, hunknown⟩ := mem_unknownRuns_iff.1 hrun
  obtain ⟨type, htype, hregisters⟩ := Registry.mem_registeredNames_iff.1 hname
  exact hunknown type htype hregisters

theorem unknownRuns_nil (types : List ResourceType) : unknownRuns r types [] = [] :=
  List.eq_nil_iff_forall_not_mem.2 fun _ hrun =>
    List.not_mem_nil (mem_unknownRuns_iff.1 hrun).2.2.1

theorem select_registeredNames (kind : KindFilter) :
    select r ⟨r.registeredNames kind.types, kind⟩ = select r ⟨[], kind⟩ := by
  have hdistinct : (r.registeredNames kind.types).eraseDups = r.registeredNames kind.types := by
    rw [← firstOccurrences_eq_eraseDups,
      firstOccurrences_of_nodup (Registry.nodup_registeredNames r kind.types)]
  rw [select_eq, select_eq, hdistinct, unknownRuns_registeredNames, List.eraseDups_nil,
    unknownRuns_nil]
  exact congrArg (· ++ _) (List.flatMap_congr fun type => registeredTargets_registeredNames r)

end Selections

/-- Naming every registered name selects what naming none selects, so the two runs are one. -/
theorem select_everything_by_name (r : Registry) (kind : KindFilter) :
    (r.registeredNames kind.types).Pairwise Text.BytesLt ∧
    (∀ name, name ∈ r.registeredNames kind.types ↔ ∃ type ∈ kind.types, r.Registers type name) ∧
    select r ⟨r.registeredNames kind.types, kind⟩ = select r ⟨[], kind⟩ ∧
    ∀ (g : Generator) files index, g.index files = .ok (index, r) →
      g.generate files ⟨r.registeredNames kind.types, kind⟩ = g.generate files ⟨[], kind⟩ := by
  have hselect := select_registeredNames r kind
  refine ⟨Registry.pairwise_registeredNames r kind.types,
    fun name => Registry.mem_registeredNames_iff, hselect, fun g files index hindex => ?_⟩
  have houtcomes : g.outcomes index r ⟨r.registeredNames kind.types, kind⟩ =
      g.outcomes index r ⟨[], kind⟩ := by
    rw [Generator.outcomes, Generator.outcomes, hselect]
  rw [Generator.generate_eq_foldlM, Generator.generate_eq_foldlM, hindex]
  dsimp only
  rw [houtcomes]

def acmeSharedRegistry : Registry where
  dataSources := .ok (.ofList [("acme_net", "net"), ("acme_disk", "disk")])
  resources := .ok (.ofList [("acme_disk", "disk")])

theorem registeredNames_acmeSharedRegistry :
    acmeSharedRegistry.registeredNames KindFilter.all.types = ["acme_disk", "acme_net"] := by
  have hnames : (KindFilter.all.types.flatMap acmeSharedRegistry.namesOf).eraseDups =
      ["acme_disk", "acme_net"] := by decide +kernel
  rw [Registry.registeredNames, hnames]
  exact List.mergeSort_of_pairwise (by decide +kernel)

theorem acme_shared_names_select_everything :
    select acmeSharedRegistry ⟨["acme_disk", "acme_net"], .all⟩ =
      [⟨.datasource, "acme_disk", some "disk"⟩, ⟨.datasource, "acme_net", some "net"⟩,
        ⟨.resource, "acme_disk", some "disk"⟩] := by
  obtain ⟨-, -, hselect, -⟩ := select_everything_by_name acmeSharedRegistry .all
  rw [registeredNames_acmeSharedRegistry] at hselect
  rw [hselect]
  decide +kernel

end ProviderManual.Manual
