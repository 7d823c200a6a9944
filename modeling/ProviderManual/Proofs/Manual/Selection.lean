import Mathlib.Data.List.Nodup
import ProviderManual.Proofs.Manual.Run

/-! What a selection by names attempts. -/

namespace ProviderManual.Schema.Registry

open ProviderManual.Manual

variable {r : Registry} {type : ResourceType} {name : String}

def Registers (r : Registry) (type : ResourceType) (name : String) : Prop :=
  ∃ entries, r.get type = .ok entries ∧ name ∈ entries.names

theorem registers_iff : r.Registers type name ↔ (r.constructor? type name).isSome = true := by
  unfold Registers constructor? entries?
  cases r.get type with
  | error e => simp [Except.toOption]
  | ok entries => simp [Except.toOption, Text.Table.isSome_get?_iff]

instance : Decidable (r.Registers type name) :=
  decidable_of_iff _ registers_iff.symm

theorem constructor?_eq_none_iff : r.constructor? type name = none ↔ ¬ r.Registers type name := by
  rw [registers_iff, Option.isSome_iff_ne_none, Ne, not_not]

end ProviderManual.Schema.Registry

namespace ProviderManual.Manual

open ProviderManual.Source ProviderManual.Schema

theorem firstOccurrences_filter (p : String → Bool) (names : List String) :
    firstOccurrences (names.filter p) = (firstOccurrences names).filter p := by
  induction names with
  | nil => rfl
  | cons name names ih =>
      rw [firstOccurrences]
      by_cases hp : p name = true
      · rw [List.filter_cons_of_pos hp, List.filter_cons_of_pos hp, firstOccurrences, ih,
          List.filter_comm]
      · rw [List.filter_cons_of_neg hp, List.filter_cons_of_neg hp, ih, List.filter_filter]
        refine List.filter_congr fun other _ => ?_
        -- the name that is dropped first does not satisfy `p`
        by_cases hother : other = name
        · simp [hother, hp]
        · simp [hother]

theorem firstOccurrences_eq_eraseDups (names : List String) :
    firstOccurrences names = names.eraseDups := by
  match names with
  | [] => rfl
  | name :: names =>
      have hfilter : names.filter (fun other => !other == name) = names.filter (· ≠ name) :=
        List.filter_congr fun other _ => by by_cases h : other = name <;> simp [h]
      rw [firstOccurrences, List.eraseDups_cons, hfilter, ← firstOccurrences_filter,
        firstOccurrences_eq_eraseDups]
termination_by names.length
decreasing_by exact Nat.lt_succ_of_le (List.length_filter_le _ _)

theorem nodup_firstOccurrences (names : List String) : (firstOccurrences names).Nodup := by
  induction names with
  | nil => exact List.nodup_nil
  | cons name names ih =>
      rw [firstOccurrences, List.nodup_cons]
      exact ⟨by simp, ih.filter _⟩

theorem nodup_eraseDups (names : List String) : names.eraseDups.Nodup :=
  firstOccurrences_eq_eraseDups names ▸ nodup_firstOccurrences names

abbrev Run := ResourceType × String

section Runs

variable (r : Registry) (types : List ResourceType) (names : List String)

/-- Each type with each of the names that it registers. -/
def registeredRuns : List Run :=
  types.flatMap fun type => (names.filter fun name => r.Registers type name).map fun name =>
    (type, name)

/-- The names that none of the types registers, under the first type. Nothing is known to be
registered nowhere while a registry cannot be read. -/
def unknownRuns : List Run :=
  if types.all r.isReadable then
    (names.filter fun name => ∀ type ∈ types, ¬ r.Registers type name).map fun name =>
      (types.headD .datasource, name)
  else []

def targetOf (run : Run) : Target :=
  ⟨run.1, run.2, r.constructor? run.1 run.2⟩

variable {r types names}

theorem mem_registeredRuns_iff {run : Run} :
    run ∈ registeredRuns r types names ↔
      run.1 ∈ types ∧ run.2 ∈ names ∧ r.Registers run.1 run.2 := by
  obtain ⟨type, name⟩ := run
  simp only [registeredRuns, List.mem_flatMap, List.mem_map, List.mem_filter, decide_eq_true_eq,
    Prod.mk.injEq]
  constructor
  · rintro ⟨type, ht, name, ⟨hn, hr⟩, rfl, rfl⟩
    exact ⟨ht, hn, hr⟩
  · rintro ⟨ht, hn, hr⟩
    exact ⟨type, ht, name, ⟨hn, hr⟩, rfl, rfl⟩

theorem mem_unknownRuns_iff {run : Run} :
    run ∈ unknownRuns r types names ↔
      (∀ type ∈ types, r.isReadable type = true) ∧ run.1 = types.headD .datasource ∧
        run.2 ∈ names ∧ ∀ type ∈ types, ¬ r.Registers type run.2 := by
  obtain ⟨type, name⟩ := run
  rw [unknownRuns, ← List.all_eq_true]
  split
  · next hreadable =>
      simp only [List.mem_map, List.mem_filter, decide_eq_true_eq, Prod.mk.injEq, hreadable, true_and]
      constructor
      · rintro ⟨name, ⟨hn, hr⟩, rfl, rfl⟩
        exact ⟨rfl, hn, hr⟩
      · rintro ⟨rfl, hn, hr⟩
        exact ⟨name, ⟨hn, hr⟩, rfl, rfl⟩
  · next hreadable => simp [hreadable]

theorem nodup_runs (htypes : types.Nodup) (hnames : names.Nodup) :
    (registeredRuns r types names ++ unknownRuns r types names).Nodup := by
  have hpair (type : ResourceType) : Function.Injective fun name : String => (type, name) :=
    fun _ _ h => congrArg Prod.snd h
  refine List.nodup_append'.2 ⟨List.nodup_flatMap.2 ⟨fun type _ => ?_, ?_⟩, ?_, ?_⟩
  · exact (hnames.filter _).map (hpair type)
  · refine htypes.imp fun {type type'} hne run hrun hrun' => ?_
    obtain ⟨name, -, rfl⟩ := List.mem_map.1 hrun
    obtain ⟨name', -, h⟩ := List.mem_map.1 hrun'
    exact hne (congrArg Prod.fst h).symm
  · unfold unknownRuns
    split
    · exact (hnames.filter _).map (hpair _)
    · exact List.nodup_nil
  · intro run hrun hrun'
    -- a name of the second part is registered for none of the types
    obtain ⟨htype, -, hregisters⟩ := mem_registeredRuns_iff.1 hrun
    exact (mem_unknownRuns_iff.1 hrun').2.2.2 run.1 htype hregisters

theorem namedTargets_eq (type : ResourceType) :
    namedTargets r names type =
      (names.filter fun name => r.Registers type name).map fun name => targetOf r (type, name) := by
  unfold namedTargets
  induction names with
  | nil => rfl
  | cons name names ih =>
      cases hc : r.constructor? type name with
      | none =>
          have hr : ¬ r.Registers type name := Registry.constructor?_eq_none_iff.1 hc
          simp [hc, hr, ih]
      | some constructor =>
          have hr : r.Registers type name := Registry.registers_iff.2 (by simp [hc])
          simp [hc, hr, ih, targetOf]

theorem unknownTargets_eq (hne : types ≠ []) :
    unknownTargets r types names = (unknownRuns r types names).map (targetOf r) := by
  obtain ⟨first, rest, rfl⟩ := List.exists_cons_of_ne_nil hne
  have hfilter : (names.filter fun name => (first :: rest).all fun type =>
      (r.constructor? type name).isNone) =
        names.filter fun name => ∀ type ∈ first :: rest, ¬ r.Registers type name := by
    refine List.filter_congr fun name _ => Bool.eq_iff_iff.2 ?_
    simp only [List.all_eq_true, decide_eq_true_eq, Option.isNone_iff_eq_none,
      Registry.constructor?_eq_none_iff]
  rw [unknownTargets, unknownNames, unknownRuns, hfilter]
  split
  · rw [List.map_map]
    refine List.map_congr_left fun name hname => ?_
    have hfirst : r.constructor? first name = none :=
      Registry.constructor?_eq_none_iff.2
        (of_decide_eq_true (List.mem_filter.1 hname).2 first List.mem_cons_self)
    simp [targetOf, hfirst]
  · rfl

end Runs

def Selection.runs (s : Selection) (r : Registry) : List Run :=
  registeredRuns r s.kind.types s.names.eraseDups ++ unknownRuns r s.kind.types s.names.eraseDups

theorem KindFilter.types_ne_nil (k : KindFilter) : k.types ≠ [] := by
  cases k <;> exact List.cons_ne_nil _ _

theorem KindFilter.nodup_types (k : KindFilter) : k.types.Nodup := by
  cases k <;> decide

theorem select_eq_map_runs {s : Selection} (h : s.names ≠ []) (r : Registry) :
    select r s = (s.runs r).map (targetOf r) := by
  have hselect : select r s = s.kind.types.flatMap (namedTargets r (firstOccurrences s.names)) ++
      unknownTargets r s.kind.types (firstOccurrences s.names) := by
    unfold select
    split
    · next hnames => exact absurd hnames h
    · rfl
  rw [hselect, firstOccurrences_eq_eraseDups, Selection.runs, List.map_append,
    unknownTargets_eq s.kind.types_ne_nil, registeredRuns, List.map_flatMap]
  congr 1
  refine List.flatMap_congr fun type _ => ?_
  rw [namedTargets_eq, List.map_map]
  rfl

def Workshop.attempt (w : Workshop) (r : Registry) (run : Run) : Except ResourceError Resource :=
  w.buildTarget (targetOf r run)

def Resource.run (r : Resource) : Run :=
  (r.type, r.name)

def failureRun (e : ResourceError) : Run :=
  (e.type, e.resource)

def Report.runs (r : Report) : List Run :=
  r.resources.map Resource.run ++ r.failures.map failureRun

def IsOutcomeOf (outcome : Except ResourceError Resource) (run : Run) : Prop :=
  match outcome with
  | .ok r => r.run = run
  | .error e => failureRun e = run

theorem isOutcomeOf_build (w : Workshop) (name : String) (type : ResourceType) (d : Decl) :
    IsOutcomeOf (w.build name type d) (type, name) := by
  unfold Workshop.build
  cases suffixOf? w.namePrefix name with
  | none => rfl
  | some suffix =>
      dsimp only
      rcases findSchemaField d.func.roots with e | l
      · rfl
      · cases l with
        | none => rfl
        | some l =>
            dsimp only
            cases resolve w.index w.modules l.elements <;> rfl

theorem build_of_no_elements {w : Workshop} {name suffix : String} {type : ResourceType} {d : Decl}
    {literalType : Option Expr} (hsuffix : suffixOf? w.namePrefix name = some suffix)
    (hschema : findSchemaField d.func.roots = .ok (some ⟨literalType, []⟩)) :
    w.build name type d =
      .ok ⟨w.provider, name, suffix, "", docDescription d.func.doc, type, []⟩ := by
  simp only [Workshop.build, hsuffix, hschema, resolve_nil]

theorem isOutcomeOf_buildTarget (w : Workshop) (t : Target) :
    IsOutcomeOf (w.buildTarget t) (t.type, t.name) := by
  unfold Workshop.buildTarget
  cases t.constructor with
  | none => rfl
  | some constructor =>
      dsimp only
      cases w.index.resource? constructor with
      | none => rfl
      | some d => exact isOutcomeOf_build w t.name t.type d

theorem isOutcomeOf_attempt (w : Workshop) (r : Registry) (run : Run) :
    IsOutcomeOf (w.attempt r run) run :=
  isOutcomeOf_buildTarget w (targetOf r run)

theorem attempt_of_not_registers {w : Workshop} {r : Registry} {run : Run}
    (h : ¬ r.Registers run.1 run.2) :
    w.attempt r run = .error ⟨run.2, run.1, [⟨[], .unknownResource run.2⟩]⟩ := by
  rw [Workshop.attempt, targetOf, Registry.constructor?_eq_none_iff.2 h, Workshop.buildTarget]

theorem perm_of_outcomes {outcome : Run → Except ResourceError Resource} (runs : List Run)
    (h : ∀ run ∈ runs, IsOutcomeOf (outcome run) run) :
    ((built (runs.map outcome)).map Resource.run ++
      (failed (runs.map outcome)).map failureRun).Perm runs := by
  induction runs with
  | nil => exact .nil
  | cons run runs ih =>
      have hrun := h run List.mem_cons_self
      have hruns := ih fun other hother => h other (List.mem_cons_of_mem run hother)
      -- a resource goes to the front, a failure behind all the resources
      rw [List.map_cons]
      cases ho : outcome run with
      | ok r =>
          rw [ho] at hrun
          rw [built_ok_cons, failed_ok_cons, List.map_cons, List.cons_append, show r.run = run from hrun]
          exact hruns.cons run
      | error e =>
          rw [ho] at hrun
          rw [built_error_cons, failed_error_cons, List.map_cons, show failureRun e = run from hrun]
          exact List.perm_middle.trans (hruns.cons run)

theorem outcomes_eq_map_attempt (g : Generator) (index : Index) (r : Registry) {s : Selection}
    (h : s.names ≠ []) :
    g.outcomes index r s = (s.runs r).map ((g.workshop index).attempt r) := by
  rw [Generator.outcomes, select_eq_map_runs h, List.map_map]
  rfl

theorem runs_collected_perm (g : Generator) (index : Index) (r : Registry) {s : Selection}
    (h : s.names ≠ []) : (g.collected s index r).runs.Perm (s.runs r) := by
  rw [Report.runs, Generator.collected, outcomes_eq_map_attempt g index r h]
  exact perm_of_outcomes (s.runs r) fun run _ => isOutcomeOf_attempt _ r run

theorem Selection.nodup_runs (s : Selection) (r : Registry) : (s.runs r).Nodup :=
  Manual.nodup_runs s.kind.nodup_types (nodup_eraseDups s.names)

theorem Selection.selected_of_mem_runs {s : Selection} {r : Registry} {run : Run}
    (h : run ∈ s.runs r) : run.1 ∈ s.kind.types ∧ run.2 ∈ s.names := by
  rcases List.mem_append.1 h with h | h
  · obtain ⟨htype, hname, -⟩ := mem_registeredRuns_iff.1 h
    exact ⟨htype, List.mem_eraseDups.1 hname⟩
  · obtain ⟨-, htype, hname, -⟩ := mem_unknownRuns_iff.1 h
    obtain ⟨first, rest, htypes⟩ := List.exists_cons_of_ne_nil s.kind.types_ne_nil
    rw [htypes] at htype ⊢
    exact ⟨htype ▸ List.mem_cons_self, List.mem_eraseDups.1 hname⟩

theorem Selection.exists_run_of_mem {s : Selection} {r : Registry}
    (hreadable : ∀ type ∈ s.kind.types, r.isReadable type = true) {name : String}
    (h : name ∈ s.names) : ∃ type, (type, name) ∈ s.runs r := by
  have hname : name ∈ s.names.eraseDups := List.mem_eraseDups.2 h
  by_cases hknown : ∃ type ∈ s.kind.types, r.Registers type name
  · obtain ⟨type, htype, hregisters⟩ := hknown
    exact ⟨type, List.mem_append_left _ (mem_registeredRuns_iff.2 ⟨htype, hname, hregisters⟩)⟩
  · refine ⟨s.kind.types.headD .datasource, List.mem_append_right _ ?_⟩
    refine mem_unknownRuns_iff.2 ⟨hreadable, rfl, hname, fun type htype hregisters => ?_⟩
    exact hknown ⟨type, htype, hregisters⟩

theorem isReadable_of_error? {r : Registry} {types : List ResourceType}
    (h : types.filterMap r.error? = []) : ∀ type ∈ types, r.isReadable type = true := by
  intro type htype
  have hnone : r.error? type = none := List.filterMap_eq_nil_iff.1 h type htype
  unfold Registry.error? at hnone
  unfold Registry.isReadable Registry.entries?
  cases hget : r.get type with
  | ok entries => rfl
  | error e => simp [hget] at hnone

/-- The report holds what each run of the selection came to, nothing twice and nothing else. -/
theorem report_of_named_selection {g : Generator} {files : List File} {s : Selection}
    {report : Report} (hkeep : g.keepGoing = true) (hnames : s.names ≠ [])
    (h : g.generate files s = .ok report) :
    ∃ index registry, g.index files = .ok (index, registry) ∧
      select registry s = (s.runs registry).map (targetOf registry) ∧
      report.resources = (s.runs registry).filterMap (fun run =>
        ((g.workshop index).attempt registry run).toOption) ∧
      report.failures = (s.runs registry).filterMap (fun run =>
        failure? ((g.workshop index).attempt registry run)) ∧
      (∀ run ∈ s.runs registry, ¬ registry.Registers run.1 run.2 →
        (g.workshop index).attempt registry run =
          .error ⟨run.2, run.1, [⟨[], .unknownResource run.2⟩]⟩) ∧
      report.runs.Nodup ∧
      (∀ run ∈ report.runs, run.1 ∈ s.kind.types ∧ run.2 ∈ s.names) ∧
      (report.isSuccess = true → ∀ name ∈ s.names, ∃ r ∈ report.resources, r.name = name) := by
  obtain ⟨index, registry, hindex, rfl⟩ := Generator.exists_index_of_generate hkeep h
  have hperm := runs_collected_perm g index registry hnames
  refine ⟨index, registry, hindex, select_eq_map_runs hnames registry, ?_, ?_,
    fun run _ => attempt_of_not_registers,
    hperm.nodup_iff.2 (s.nodup_runs registry), fun run hrun => ?_, fun hsuccess name hname => ?_⟩
  · rw [Generator.collected, outcomes_eq_map_attempt g index registry hnames, built,
      List.filterMap_map]
    rfl
  · rw [Generator.collected, outcomes_eq_map_attempt g index registry hnames, failed,
      List.filterMap_map]
    rfl
  · exact Selection.selected_of_mem_runs (hperm.mem_iff.1 hrun)
  · obtain ⟨hfailures, hregistries⟩ := Report.isSuccess_iff.1 hsuccess
    obtain ⟨type, hrun⟩ := Selection.exists_run_of_mem (isReadable_of_error? hregistries) hname
    -- without failures the run of the name is among the resources
    have hresource := hperm.mem_iff.2 hrun
    rw [Report.runs, hfailures, List.map_nil, List.append_nil] at hresource
    obtain ⟨r, hr, hrun⟩ := List.mem_map.1 hresource
    exact ⟨r, hr, congrArg Prod.snd hrun⟩

def acmeDisk : Func where
  name := "disk"
  doc := ""
  line := 9
  results := [.selector (.ident "schema") "Resource"]
  body := [.ret [.composite none [.keyValue (.ident "Schema") (.composite none [])]]]

def acmeProvider : Func where
  name := "Provider"
  doc := ""
  line := 1
  results := [.selector (.ident "terraform") "ResourceProvider"]
  body := [.ret [.composite none [
    .keyValue (.ident "DataSourcesMap") (.composite none []),
    .keyValue (.ident "ResourcesMap") (.composite none [
      .keyValue (.basicLit .string "\x60acme_disk\x60") (.call (.ident "disk") [])])]]]

def acmeFile : File where
  path := "acme.go"
  package := "acme"
  imports := [⟨none, "\x60schema\x60"⟩, ⟨none, "\x60terraform\x60"⟩]
  funcs := [acmeProvider, acmeDisk]

def acmeGenerator : Generator :=
  { Generator.ofProvider "acme" with modules := ⟨"schema", "terraform"⟩ }

def acmeSelection : Selection where
  names := ["acme_disk", "acme_net", "acme_disk"]
  kind := .all

def acmeImports : ImportMap :=
  (Text.Table.empty.insert "schema" "schema").insert "terraform" "terraform"

def acmeIndex : Index where
  resources := Text.Table.empty.insert "disk" ⟨acmeDisk, acmeImports, "acme.go"⟩
  schemas := .empty
  provider := some ⟨acmeProvider, acmeImports, "acme.go"⟩

def acmeRegistry : Registry where
  dataSources := .ok .empty
  resources := .ok (Text.Table.empty.insert "acme_disk" "disk")

theorem index_acmeFile : acmeGenerator.index [acmeFile] = .ok (acmeIndex, acmeRegistry) := by
  have hsort : Text.sortOn File.path [acmeFile] = [acmeFile] := List.mergeSort_singleton _
  have hbuild : Index.build acmeGenerator.modules acmeGenerator.scan [acmeFile] = .ok acmeIndex := by
    rw [Index.build, hsort]
    rfl
  rw [Generator.index, hbuild]
  rfl

theorem runs_acmeSelection :
    acmeSelection.runs acmeRegistry = [(.resource, "acme_disk"), (.datasource, "acme_net")] := by
  decide +kernel

theorem attempt_acme_disk :
    (acmeGenerator.workshop acmeIndex).attempt acmeRegistry (.resource, "acme_disk") =
      .ok ⟨"acme", "acme_disk", "disk", "", "", .resource, []⟩ := by
  have hsuffix : suffixOf? "acme_" "acme_disk" = some "disk" := by decide +kernel
  have hschema : findSchemaField acmeDisk.roots = .ok (some ⟨none, []⟩) := rfl
  exact build_of_no_elements (w := acmeGenerator.workshop acmeIndex)
    (d := ⟨acmeDisk, acmeImports, "acme.go"⟩) hsuffix hschema

theorem acme_disk_built_and_net_unknown :
    acmeGenerator.keepGoing = true ∧ acmeSelection.names ≠ [] ∧
    ∃ report, acmeGenerator.generate [acmeFile] acmeSelection = .ok report ∧
      report.resources = [⟨"acme", "acme_disk", "disk", "", "", .resource, []⟩] ∧
      report.failures = [⟨"acme_net", .datasource, [⟨[], .unknownResource "acme_net"⟩]⟩] ∧
      report.runs.Nodup := by
  have hkeep : acmeGenerator.keepGoing = true := rfl
  have hnames : acmeSelection.names ≠ [] := List.cons_ne_nil _ _
  have hgenerate : acmeGenerator.generate [acmeFile] acmeSelection =
      .ok (acmeGenerator.collected acmeSelection acmeIndex acmeRegistry) := by
    rw [Generator.generate_of_keepGoing hkeep, index_acmeFile]
    rfl
  obtain ⟨index, registry, hindex, -, hresources, hfailures, hunknown, hnodup, -, -⟩ :=
    report_of_named_selection hkeep hnames hgenerate
  rw [index_acmeFile] at hindex
  cases hindex
  rw [runs_acmeSelection] at hresources hfailures hunknown
  have hnet := hunknown (.datasource, "acme_net") (by simp) (by decide +kernel)
  refine ⟨hkeep, hnames, _, hgenerate, ?_, ?_, hnodup⟩
  · rw [hresources]
    simp [attempt_acme_disk, hnet, Except.toOption]
  · rw [hfailures]
    simp [attempt_acme_disk, hnet, failure?]

end ProviderManual.Manual
