import ProviderManual.Proofs.Manual.Selection
import ProviderManual.Proofs.Schema.Footprint

/-! A run over all types beside the runs over the single types. -/

namespace ProviderManual.Schema

def Fault.isUnknown : Fault → Bool
  | .unknownResource _ => true
  | _ => false

theorem Fault.IsOfResolution.isUnknown {f : Fault} (h : f.IsOfResolution) : f.isUnknown = false := by
  cases f with
  | unknownResource name => exact absurd h id
  | _ => rfl

def ResourceError.isUnknown (e : ResourceError) : Bool :=
  e.errors.any (·.fault.isUnknown)

end ProviderManual.Schema

namespace ProviderManual.Manual

open ProviderManual.Source ProviderManual.Schema

def Report.knownFailures (r : Report) : List ResourceError :=
  r.failures.filter (!·.isUnknown)

def Report.ReportsUnknown (r : Report) (name : String) : Prop :=
  ∃ e ∈ r.failures, ∃ x ∈ e.errors, x.fault = .unknownResource name

section Failures

variable {outcomes outcomes' : List (Except ResourceError Resource)}

theorem built_append : built (outcomes ++ outcomes') = built outcomes ++ built outcomes' :=
  List.filterMap_append

theorem failed_append : failed (outcomes ++ outcomes') = failed outcomes ++ failed outcomes' :=
  List.filterMap_append

theorem built_flatMap {α : Type} (f : α → List (Except ResourceError Resource)) (xs : List α) :
    built (xs.flatMap f) = xs.flatMap fun x => built (f x) := by
  induction xs with
  | nil => rfl
  | cons x xs ih => rw [List.flatMap_cons, List.flatMap_cons, built_append, ih]

theorem failed_flatMap {α : Type} (f : α → List (Except ResourceError Resource)) (xs : List α) :
    failed (xs.flatMap f) = xs.flatMap fun x => failed (f x) := by
  induction xs with
  | nil => rfl
  | cons x xs ih => rw [List.flatMap_cons, List.flatMap_cons, failed_append, ih]

theorem mem_built_iff {r : Resource} : r ∈ built outcomes ↔ .ok r ∈ outcomes := by
  rw [built, List.mem_filterMap]
  constructor
  · rintro ⟨o, ho, hr⟩
    cases o with
    | error e => cases hr
    | ok r' =>
        cases hr
        exact ho
  · intro h
    exact ⟨.ok r, h, rfl⟩

theorem mem_failed_iff {e : ResourceError} : e ∈ failed outcomes ↔ .error e ∈ outcomes := by
  rw [failed, List.mem_filterMap]
  constructor
  · rintro ⟨o, ho, he⟩
    cases o with
    | ok r => cases he
    | error e' =>
        cases he
        exact ho
  · intro h
    exact ⟨.error e, h, rfl⟩

end Failures

theorem isUnknown_of_build {w : Workshop} {name : String} {type : ResourceType} {d : Decl}
    {e : ResourceError} (h : w.build name type d = .error e) : e.isUnknown = false := by
  unfold Workshop.build at h
  cases hs : suffixOf? w.namePrefix name with
  | none =>
      simp only [hs] at h
      cases h
      rfl
  | some suffix =>
      simp only [hs] at h
      rcases hl : findSchemaField d.func.roots with f | l
      · simp only [hl] at h
        cases h
        have hf := (FailsReading.findSchemaField _ f hl).isOfResolution.isUnknown
        simp [ResourceError.isUnknown, hf]
      · simp only [hl] at h
        cases l with
        | none =>
            cases h
            rfl
        | some l =>
            dsimp only at h
            cases hr : resolve w.index w.modules l.elements with
            | ok as =>
                rw [hr] at h
                cases h
            | error es =>
                rw [hr] at h
                cases h
                have hes : FailsResolving (resolve w.index w.modules l.elements) := by
                  rw [resolve, resolveAt_eq]
                  exact (FailsResolving.resolution w.index w.modules).1 [] [] l.elements
                rw [hr] at hes
                rw [ResourceError.isUnknown, List.any_eq_false]
                intro x hx
                simp [(hes x hx).isUnknown]

theorem isUnknown_of_buildTarget {w : Workshop} {t : Target} {e : ResourceError}
    (ht : t.constructor.isSome = true) (h : w.buildTarget t = .error e) : e.isUnknown = false := by
  obtain ⟨constructor, hconstructor⟩ := Option.isSome_iff_exists.1 ht
  unfold Workshop.buildTarget at h
  rw [hconstructor] at h
  dsimp only at h
  cases hd : w.index.resource? constructor with
  | none =>
      rw [hd] at h
      cases h
      rfl
  | some d =>
      rw [hd] at h
      exact isUnknown_of_build h

theorem type_of_buildTarget {w : Workshop} {t : Target} {r : Resource}
    (h : w.buildTarget t = .ok r) : r.type = t.type := by
  unfold Workshop.buildTarget at h
  split at h
  · cases h
  · split at h
    · cases h
    · next d _ =>
        have hrun : IsOutcomeOf (w.build t.name t.type d) (t.type, t.name) :=
          isOutcomeOf_build w t.name t.type d
        rw [h] at hrun
        exact congrArg Prod.fst hrun

def registeredTargets (r : Registry) (names : List String) (type : ResourceType) : List Target :=
  if names = [] then allTargets r type else namedTargets r (firstOccurrences names) type

section Targets

variable {r r' : Registry} {names : List String} {type : ResourceType}

theorem registeredTargets_congr (h : r'.get type = r.get type) :
    registeredTargets r' names type = registeredTargets r names type := by
  simp only [registeredTargets, allTargets, namedTargets, Registry.constructor?, Registry.entries?, h]

theorem of_mem_registeredTargets {t : Target} (h : t ∈ registeredTargets r names type) :
    t.type = type ∧ t.constructor.isSome = true := by
  unfold registeredTargets at h
  split at h
  · unfold allTargets at h
    split at h
    · obtain ⟨entry, -, rfl⟩ := List.mem_map.1 h
      exact ⟨rfl, rfl⟩
    · cases h
  · obtain ⟨name, -, hname⟩ := List.mem_filterMap.1 h
    obtain ⟨constructor, -, rfl⟩ := Option.map_eq_some_iff.1 hname
    exact ⟨rfl, rfl⟩

theorem select_eq (r : Registry) (s : Selection) :
    select r s = s.kind.types.flatMap (registeredTargets r s.names) ++
      (unknownRuns r s.kind.types s.names.eraseDups).map (targetOf r) := by
  obtain ⟨names, kind⟩ := s
  rw [← unknownTargets_eq kind.types_ne_nil, ← firstOccurrences_eq_eraseDups]
  cases names with
  | nil =>
      have hunknown : unknownTargets r kind.types [] = [] := by
        cases kind <;> simp [unknownTargets, unknownNames, KindFilter.types]
      rw [firstOccurrences, hunknown, List.append_nil]
      exact List.flatMap_congr fun type _ => (if_pos rfl).symm
  | cons name names =>
      refine congrArg (· ++ _) (List.flatMap_congr fun type _ => ?_)
      exact (if_neg (List.cons_ne_nil name names)).symm

theorem buildTarget_unknown {w : Workshop} {types : List ResourceType} {run : Run}
    (h : run ∈ unknownRuns r types names) (hne : types ≠ []) :
    w.buildTarget (targetOf r run) = .error ⟨run.2, run.1, [⟨[], .unknownResource run.2⟩]⟩ := by
  obtain ⟨-, htype, -, hregisters⟩ := mem_unknownRuns_iff.1 h
  obtain ⟨first, rest, rfl⟩ := List.exists_cons_of_ne_nil hne
  exact attempt_of_not_registers (hregisters run.1 (htype ▸ List.mem_cons_self))

end Targets

namespace Generator

variable (g : Generator) (index : Index) (registry : Registry) (names : List String)

def registeredOutcomes (type : ResourceType) : List (Except ResourceError Resource) :=
  (registeredTargets registry names type).map (g.workshop index).buildTarget

def unknownOutcomes (kind : KindFilter) : List (Except ResourceError Resource) :=
  (unknownRuns registry kind.types names.eraseDups).map fun run =>
    .error ⟨run.2, run.1, [⟨[], .unknownResource run.2⟩]⟩

theorem outcomes_eq (kind : KindFilter) :
    g.outcomes index registry ⟨names, kind⟩ =
      kind.types.flatMap (g.registeredOutcomes index registry names) ++
        unknownOutcomes registry names kind := by
  rw [outcomes, select_eq, List.map_append, List.map_flatMap, List.map_map]
  congr 1
  exact List.map_congr_left fun run hrun => buildTarget_unknown hrun kind.types_ne_nil

theorem resources_collected (kind : KindFilter) :
    (g.collected ⟨names, kind⟩ index registry).resources =
      kind.types.flatMap fun type => built (g.registeredOutcomes index registry names type) := by
  have hunknown : built (unknownOutcomes registry names kind) = [] := by
    rw [unknownOutcomes, built, List.filterMap_map, List.filterMap_eq_nil_iff]
    intro run _
    rfl
  rw [collected, outcomes_eq, built_append, built_flatMap, hunknown, List.append_nil]

theorem knownFailures_collected (kind : KindFilter) :
    (g.collected ⟨names, kind⟩ index registry).knownFailures =
      kind.types.flatMap fun type => failed (g.registeredOutcomes index registry names type) := by
  have hunknown : (failed (unknownOutcomes registry names kind)).filter (!·.isUnknown) = [] := by
    rw [List.filter_eq_nil_iff]
    intro e he
    obtain ⟨run, -, hrun⟩ := List.mem_map.1 (mem_failed_iff.1 he)
    cases hrun
    simp [ResourceError.isUnknown, Fault.isUnknown]
  have hregistered : ∀ type, (failed (g.registeredOutcomes index registry names type)).filter
      (!·.isUnknown) = failed (g.registeredOutcomes index registry names type) := by
    intro type
    rw [List.filter_eq_self]
    intro e he
    obtain ⟨t, ht, hbuild⟩ := List.mem_map.1 (mem_failed_iff.1 he)
    rw [isUnknown_of_buildTarget (of_mem_registeredTargets ht).2 hbuild, Bool.not_false]
  rw [Report.knownFailures, collected, outcomes_eq, failed_append, failed_flatMap, List.filter_append,
    hunknown, List.append_nil, List.filter_flatMap]
  exact List.flatMap_congr fun type _ => hregistered type

theorem reportsUnknown_collected_iff (kind : KindFilter) (name : String) :
    (g.collected ⟨names, kind⟩ index registry).ReportsUnknown name ↔
      name ∈ names ∧ ∀ type ∈ kind.types,
        registry.isReadable type = true ∧ ¬ registry.Registers type name := by
  have hregistered : ∀ type, ∀ e ∈ failed (g.registeredOutcomes index registry names type),
      ∀ x ∈ e.errors, x.fault ≠ .unknownResource name := by
    intro type e he x hx hfault
    obtain ⟨t, ht, hbuild⟩ := List.mem_map.1 (mem_failed_iff.1 he)
    have hunknown := isUnknown_of_buildTarget (of_mem_registeredTargets ht).2 hbuild
    rw [ResourceError.isUnknown, List.any_eq_false] at hunknown
    exact hunknown x hx (by rw [hfault]; rfl)
  constructor
  · rintro ⟨e, he, x, hx, hfault⟩
    rw [collected, outcomes_eq, failed_append, failed_flatMap] at he
    rcases List.mem_append.1 he with he | he
    · obtain ⟨type, -, he⟩ := List.mem_flatMap.1 he
      exact absurd hfault (hregistered type e he x hx)
    · obtain ⟨run, hrun, hrun'⟩ := List.mem_map.1 (mem_failed_iff.1 he)
      cases hrun'
      obtain rfl := List.mem_singleton.1 hx
      cases hfault
      obtain ⟨hreadable, -, hname, hregisters⟩ := mem_unknownRuns_iff.1 hrun
      exact ⟨List.mem_eraseDups.1 hname,
        fun type htype => ⟨hreadable type htype, hregisters type htype⟩⟩
  · rintro ⟨hname, htypes⟩
    have hrun : (kind.types.headD .datasource, name) ∈
        unknownRuns registry kind.types names.eraseDups :=
      mem_unknownRuns_iff.2 ⟨fun type htype => (htypes type htype).1, rfl,
        List.mem_eraseDups.2 hname, fun type htype => (htypes type htype).2⟩
    refine ⟨⟨name, kind.types.headD .datasource, [⟨[], .unknownResource name⟩]⟩, ?_, _,
      List.mem_singleton_self _, rfl⟩
    rw [collected, outcomes_eq, failed_append]
    exact List.mem_append_right _ (mem_failed_iff.2 (List.mem_map_of_mem hrun))

theorem filter_type_resources_collected (type : ResourceType) :
    (g.collected ⟨names, .all⟩ index registry).resources.filter (·.type = type) =
      built (g.registeredOutcomes index registry names type) := by
  have htype : ∀ type', ∀ r ∈ built (g.registeredOutcomes index registry names type'),
      r.type = type' := by
    intro type' r hr
    obtain ⟨t, ht, hbuild⟩ := List.mem_map.1 (mem_built_iff.1 hr)
    rw [type_of_buildTarget hbuild, (of_mem_registeredTargets ht).1]
  have hself : (built (g.registeredOutcomes index registry names type)).filter (·.type = type) =
      built (g.registeredOutcomes index registry names type) :=
    List.filter_eq_self.2 fun r hr => decide_eq_true (htype type r hr)
  have hother : ∀ type', type' ≠ type →
      (built (g.registeredOutcomes index registry names type')).filter (·.type = type) = [] :=
    fun type' hne => List.filter_eq_nil_iff.2 fun r hr => by
      rw [htype type' r hr]
      simpa using hne
  rw [resources_collected, List.filter_flatMap]
  cases type with
  | datasource =>
      simp [KindFilter.types, hself, hother .resource (by decide)]
  | resource =>
      simp [KindFilter.types, hself, hother .datasource (by decide)]

end Generator

theorem buildTarget_congr {index index' : Index} {modules : Modules} {provider namePrefix : String}
    (hresources : index'.resources = index.resources) (hschemas : index'.schemas = index.schemas)
    (t : Target) :
    Workshop.buildTarget ⟨index', modules, provider, namePrefix⟩ t =
      Workshop.buildTarget ⟨index, modules, provider, namePrefix⟩ t := by
  have hbuild (d : Decl) : Workshop.build ⟨index', modules, provider, namePrefix⟩ t.name t.type d =
      Workshop.build ⟨index, modules, provider, namePrefix⟩ t.name t.type d := by
    refine build_congr fun l _ => resolveAt_congr fun b _ => ?_
    rw [Index.schema?, Index.schema?, hschemas]
  unfold Workshop.buildTarget
  simp only [Index.resource?, hresources, hbuild]

/-- The run over all types reports what the runs over the single types report, one after the other; a
name is unknown to it exactly if it is to both. -/
theorem report_of_all_kinds {g : Generator} {files : List File} {index : Index} {registry : Registry}
    (hkeep : g.keepGoing = true) (hindex : g.index files = .ok (index, registry))
    (names : List String) :
    ∃ report : KindFilter → Report,
      (∀ kind, g.generate files ⟨names, kind⟩ = .ok (report kind)) ∧
      (report .all).resources = (report .datasource).resources ++ (report .resource).resources ∧
      (report .all).registryFailures =
        (report .datasource).registryFailures ++ (report .resource).registryFailures ∧
      (report .all).knownFailures =
        (report .datasource).knownFailures ++ (report .resource).knownFailures ∧
      (∀ name, (report .all).ReportsUnknown name ↔
        (report .datasource).ReportsUnknown name ∧ (report .resource).ReportsUnknown name) ∧
      ∀ files' index' registry' type, g.index files' = .ok (index', registry') →
        index'.resources = index.resources → index'.schemas = index.schemas →
        registry'.get type = registry.get type →
        ∃ report', g.generate files' ⟨names, .all⟩ = .ok report' ∧
          report'.resources.filter (·.type = type) =
            (report .all).resources.filter (·.type = type) := by
  have hgenerate {files : List File} {index : Index} {registry : Registry}
      (h : g.index files = .ok (index, registry)) (kind : KindFilter) :
      g.generate files ⟨names, kind⟩ = .ok (g.collected ⟨names, kind⟩ index registry) := by
    rw [Generator.generate_of_keepGoing hkeep, h]
    rfl
  refine ⟨fun kind => g.collected ⟨names, kind⟩ index registry, hgenerate hindex, ?_, ?_, ?_, ?_, ?_⟩
  · simp only [Generator.resources_collected, KindFilter.types, List.flatMap_cons, List.flatMap_nil,
      List.append_nil]
  · change ([.datasource] ++ [.resource] : List ResourceType).filterMap registry.error? = _
    exact List.filterMap_append
  · simp only [Generator.knownFailures_collected, KindFilter.types, List.flatMap_cons,
      List.flatMap_nil, List.append_nil]
  · intro name
    simp only [Generator.reportsUnknown_collected_iff, KindFilter.types, List.forall_mem_cons]
    tauto
  · intro files' index' registry' type hindex' hresources hschemas htype
    refine ⟨_, hgenerate hindex' .all, ?_⟩
    rw [Generator.filter_type_resources_collected, Generator.filter_type_resources_collected]
    unfold Generator.registeredOutcomes
    rw [registeredTargets_congr htype]
    congr 1
    exact List.map_congr_left fun t _ => buildTarget_congr hresources hschemas t

def acmeLoneProvider : Func :=
  { acmeProvider with
    body := [.ret [.composite none [
      .keyValue (.ident "ResourcesMap") (.composite none [
        .keyValue (.basicLit .string "\x60acme_disk\x60") (.call (.ident "disk") [])])]]] }

def acmeLoneFile : File :=
  { acmeFile with funcs := [acmeLoneProvider, acmeDisk] }

def acmeLoneIndex : Index :=
  { acmeIndex with provider := some ⟨acmeLoneProvider, acmeImports, "acme.go"⟩ }

def acmeLoneRegistry : Registry :=
  { acmeRegistry with dataSources := .error ⟨.datasource, .missing⟩ }

theorem index_acmeLoneFile :
    acmeGenerator.index [acmeLoneFile] = .ok (acmeLoneIndex, acmeLoneRegistry) := by
  have hsort : Text.sortOn File.path [acmeLoneFile] = [acmeLoneFile] := List.mergeSort_singleton _
  have hbuild : Index.build acmeGenerator.modules acmeGenerator.scan [acmeLoneFile] =
      .ok acmeLoneIndex := by
    rw [Index.build, hsort]
    rfl
  rw [Generator.index, hbuild]
  rfl

theorem acme_disk_built_without_data_sources :
    acmeGenerator.keepGoing = true ∧
    acmeGenerator.index [acmeFile] = .ok (acmeIndex, acmeRegistry) ∧
    acmeGenerator.index [acmeLoneFile] = .ok (acmeLoneIndex, acmeLoneRegistry) ∧
    ∃ report, acmeGenerator.generate [acmeLoneFile] ⟨["acme_disk"], .all⟩ = .ok report ∧
      report.resources.filter (·.type = .resource) =
        [⟨"acme", "acme_disk", "disk", "", "", .resource, []⟩] := by
  have hkeep : acmeGenerator.keepGoing = true := rfl
  obtain ⟨report, hgenerate, -, -, -, -, hother⟩ :=
    report_of_all_kinds hkeep index_acmeFile ["acme_disk"]
  obtain ⟨lone, hlone, hresources⟩ :=
    hother [acmeLoneFile] acmeLoneIndex acmeLoneRegistry .resource index_acmeLoneFile rfl rfl rfl
  refine ⟨hkeep, index_acmeFile, index_acmeLoneFile, lone, hlone, ?_⟩
  have hall : report .all = acmeGenerator.collected ⟨["acme_disk"], .all⟩ acmeIndex acmeRegistry := by
    have h := hgenerate .all
    rw [Generator.generate_of_keepGoing hkeep, index_acmeFile] at h
    exact (Except.ok.inj h).symm
  have htargets : registeredTargets acmeRegistry ["acme_disk"] .resource =
      [targetOf acmeRegistry (.resource, "acme_disk")] := by decide +kernel
  rw [hresources, hall, Generator.filter_type_resources_collected, Generator.registeredOutcomes,
    htargets]
  exact congrArg (fun outcome => built [outcome]) attempt_acme_disk

end ProviderManual.Manual
