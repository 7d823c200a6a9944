import ProviderManual.CommandLine.Run
import ProviderManual.Proofs.Manual.Report
import ProviderManual.Proofs.Template.Comparison

/-! The list of what a provider registers, beside the report on all of it. -/

namespace ProviderManual.CommandLine

open ProviderManual.Schema ProviderManual.Manual ProviderManual.Source

structure Row where
  type : ResourceType
  name : String
  constructor : String

namespace Row

def run (row : Row) : Run :=
  (row.type, row.name)

def target (row : Row) : Target :=
  ⟨row.type, row.name, some row.constructor⟩

def text (row : Row) : String :=
  "  " ++ padded 40 row.name ++ " " ++ row.constructor ++ "\n"

/-- Data sources come first, and what is of one type in the byte order of the names. -/
def Before (row row' : Row) : Prop :=
  row.type = row'.type ∧ Text.BytesLt row.name row'.name ∨
    row.type = .datasource ∧ row'.type = .resource

end Row

def listing (types unreadable : List ResourceType) (rows : List Row) : String :=
  String.join (types.map fun type =>
    if type ∈ unreadable then listHeading type ++ ": unreadable\n\n"
    else
      let own := rows.filter (·.type = type)
      listHeading type ++ " (" ++ toString own.length ++ "):\n" ++ String.join (own.map Row.text) ++ "\n")

def rowsOf (r : Registry) (type : ResourceType) : List Row :=
  match r.get type with
  | .ok entries => entries.entries.map fun e => ⟨type, e.1, e.2⟩
  | .error _ => []

section Rows

variable {r : Registry}

theorem type_of_mem_rowsOf {type : ResourceType} {row : Row} (h : row ∈ rowsOf r type) :
    row.type = type := by
  unfold rowsOf at h
  split at h
  · obtain ⟨e, -, rfl⟩ := List.mem_map.1 h
    rfl
  · cases h

theorem pairwise_rowsOf (r : Registry) (type : ResourceType) : (rowsOf r type).Pairwise Row.Before := by
  unfold rowsOf
  split
  · next entries _ =>
      exact List.pairwise_map.2 (entries.ascending.imp fun hlt => .inl ⟨rfl, hlt⟩)
  · exact .nil

theorem pairwise_rows (r : Registry) (kind : KindFilter) :
    (kind.types.flatMap (rowsOf r)).Pairwise Row.Before := by
  have hbetween : ∀ row ∈ rowsOf r .datasource, ∀ row' ∈ rowsOf r .resource, row.Before row' :=
    fun row hrow row' hrow' => .inr ⟨type_of_mem_rowsOf hrow, type_of_mem_rowsOf hrow'⟩
  cases kind with
  | datasource => simpa [KindFilter.types] using pairwise_rowsOf r .datasource
  | resource => simpa [KindFilter.types] using pairwise_rowsOf r .resource
  | all =>
      simpa [KindFilter.types, List.pairwise_append] using
        ⟨pairwise_rowsOf r .datasource, pairwise_rowsOf r .resource, hbetween⟩

theorem map_target_rowsOf (r : Registry) (type : ResourceType) :
    (rowsOf r type).map Row.target = allTargets r type := by
  unfold rowsOf allTargets Registry.entries?
  cases r.get type with
  | error e => rfl
  | ok entries =>
      dsimp only [Except.toOption]
      rw [List.map_map]
      rfl

theorem map_target_rows (r : Registry) (kind : KindFilter) :
    (kind.types.flatMap (rowsOf r)).map Row.target = select r ⟨[], kind⟩ := by
  rw [List.map_flatMap]
  exact List.flatMap_congr fun type _ => map_target_rowsOf r type

theorem filter_type_rows {kind : KindFilter} {type : ResourceType} (h : type ∈ kind.types) :
    (kind.types.flatMap (rowsOf r)).filter (·.type = type) = rowsOf r type := by
  have hfilter (type' : ResourceType) : (rowsOf r type').filter (·.type = type) =
      if type' = type then rowsOf r type' else [] := by
    split
    · next heq =>
        subst heq
        exact List.filter_eq_self.2 fun row hrow => decide_eq_true (type_of_mem_rowsOf hrow)
    · next hne =>
        exact List.filter_eq_nil_iff.2 fun row hrow => by simpa [type_of_mem_rowsOf hrow] using hne
  simp only [List.filter_flatMap, hfilter]
  cases kind <;> cases type <;> simp_all [KindFilter.types]

theorem listText_eq {type : ResourceType} {unreadable : List ResourceType}
    (h : type ∈ unreadable ↔ ∃ e, r.get type = .error e) :
    listText type (r.get type) =
      if type ∈ unreadable then listHeading type ++ ": unreadable\n\n"
      else listHeading type ++ " (" ++ toString (rowsOf r type).length ++ "):\n"
        ++ String.join ((rowsOf r type).map Row.text) ++ "\n" := by
  unfold rowsOf
  cases hget : r.get type with
  | error e => rw [if_pos (h.2 ⟨e, hget⟩), listText]
  | ok entries =>
      have hreadable : type ∉ unreadable := fun hmem => by
        obtain ⟨e, he⟩ := h.1 hmem
        rw [hget] at he
        cases he
      rw [if_neg hreadable, listText, List.length_map, List.map_map]
      rfl

theorem listing_rows (provider : Func) (kind : KindFilter) :
    String.join (kind.types.map fun type =>
        listText type ((Registry.extract provider).get type)) =
      listing kind.types ((kind.types.filterMap (Registry.extract provider).error?).map (·.type))
        (kind.types.flatMap (rowsOf (.extract provider))) := by
  unfold listing
  congr 1
  refine List.map_congr_left fun type htype => ?_
  dsimp only
  rw [filter_type_rows htype]
  refine listText_eq ⟨fun hmem => ?_, fun ⟨e, he⟩ => ?_⟩
  · obtain ⟨e, he, rfl⟩ := List.mem_map.1 hmem
    obtain ⟨type', -, herror⟩ := List.mem_filterMap.1 he
    have hget := Registry.get_of_error? herror
    exact ⟨e, Registry.type_of_get_extract hget ▸ hget⟩
  · refine List.mem_map.2 ⟨e, List.mem_filterMap.2 ⟨type, htype, ?_⟩,
      Registry.type_of_get_extract he⟩
    rw [Registry.error?, he]

variable (g : Generator) (index : Index) (kind : KindFilter)

theorem outcomes_rows : g.outcomes index r ⟨[], kind⟩ =
    (kind.types.flatMap (rowsOf r)).map fun row => (g.workshop index).buildTarget row.target := by
  rw [Generator.outcomes, ← map_target_rows, List.map_map]
  rfl

theorem resources_rows : (g.collected ⟨[], kind⟩ index r).resources =
    (kind.types.flatMap (rowsOf r)).filterMap fun row =>
      ((g.workshop index).buildTarget row.target).toOption := by
  rw [Generator.collected, outcomes_rows, built, List.filterMap_map]
  rfl

theorem failures_rows : (g.collected ⟨[], kind⟩ index r).failures =
    (kind.types.flatMap (rowsOf r)).filterMap fun row =>
      failure? ((g.workshop index).buildTarget row.target) := by
  rw [Generator.collected, outcomes_rows, failed, List.filterMap_map]
  rfl

theorem runs_perm_rows : (g.collected ⟨[], kind⟩ index r).runs.Perm
    ((kind.types.flatMap (rowsOf r)).map Row.run) := by
  have hruns := g.runs_collected_perm_select index r ⟨[], kind⟩
  rw [← map_target_rows, List.map_map] at hruns
  exact hruns

end Rows

/-- Both commands get the same files with the same settings; pages are laid out by a template that can be
read, for all names, and failures are collected. -/
structure RunAlike (t : Files.Tree) (a : GenerateArguments) (l : ListArguments) (config : Config)
    (template : List Template.Node) (files : List File) : Prop where
  loaded : loadConfig t a.config = .ok config
  loaded' : loadConfig t l.config = .ok config
  format : a.format = "markdown" ∨ a.format = "json"
  source : l.path.getD config.source = (a.override config).source
  kind : l.kind.getD config.kind = (a.override config).kind
  scan : (a.override config).scan = config.scan
  keepGoing : (a.override config).keepGoing = true
  resources : (a.override config).resources = []
  template : loadTemplate t (a.override config).template = .ok template
  files : loadPackage t (a.override config) = .ok files

section Commands

variable {t : Files.Tree} {a : GenerateArguments} {l : ListArguments} {config : Config}
  {template : List Template.Node} {files : List File}

theorem extract_of_index {g : Generator} {index : Index} {registry : Registry}
    (h : g.index files = .ok (index, registry)) : ∃ provider, registry = .extract provider := by
  unfold Generator.index at h
  split at h
  · cases h
  · split at h
    · cases h
    · next provider _ =>
        cases h
        exact ⟨provider.func, rfl⟩

theorem index_congr {g g' : Generator} (hmodules : g.modules = g'.modules) (hscan : g.scan = g'.scan)
    (files : List File) : g.index files = g'.index files := by
  rw [Generator.index, Generator.index, hmodules, hscan]

theorem RunAlike.plan_eq (h : RunAlike t a l config template files) :
    plan t a =
      match (a.override config).generator.index files with
      | .error e => .error (.run e)
      | .ok (index, registry) => .ok {
          config := a.override config
          template := template
          report := (a.override config).generator.collected (a.override config).selection index
            registry } := by
  have hformat : ¬ (a.format ≠ "markdown" ∧ a.format ≠ "json") := by
    rcases h.format with h | h <;> simp [h]
  have hkeep : (a.override config).generator.keepGoing = true := h.keepGoing
  rw [plan, if_neg hformat, h.loaded]
  simp only [bind, Except.bind, pure, Except.pure, h.template, h.files,
    Generator.generate_of_keepGoing hkeep]
  cases (a.override config).generator.index files <;> rfl

theorem loadPackage_override (t : Files.Tree) (a : GenerateArguments) (c : Config) :
    loadPackage t (a.override c) = loadPackage t { c with source := (a.override c).source } := rfl

theorem RunAlike.listed_eq (h : RunAlike t a l config template files) :
    listed t l =
      match (a.override config).generator.index files with
      | .error e => .error (.run e)
      | .ok (_, registry) => .ok (registry, (a.override config).kind.types) := by
  have hfiles : loadPackage t { config with source := l.path.getD config.source } = .ok files := by
    rw [h.source, ← loadPackage_override]
    exact h.files
  have hindex : Generator.index
      (Config.generator { config with source := l.path.getD config.source }) files =
        (a.override config).generator.index files :=
    index_congr (by rfl) h.scan.symm files
  cases hindexed : (a.override config).generator.index files with
  | error e => simp only [listed, h.loaded', bind, Except.bind, hfiles, hindex, hindexed]
  | ok indexed =>
      obtain ⟨index, registry⟩ := indexed
      simp only [listed, h.loaded', bind, Except.bind, pure, Except.pure, hfiles, hindex, hindexed, h.kind]

theorem runList_eq {registry : Registry} {types : List ResourceType}
    (h : listed t l = .ok (registry, types)) :
    runList t l = {
      exitCode := if types.filterMap registry.error? = [] then 0 else 1
      output := String.join (types.map fun type => listText type (registry.get type))
      complaints := (types.filterMap registry.error?).map .registry
      files := t } := by
  simp only [runList, h, List.isEmpty_iff]

theorem runList_of_error {c : Complaint} (h : listed t l = .error c) : runList t l = stopped t c := by
  rw [runList, h]

theorem listed_of_loadPackage_error {c : Complaint} (hconfig : loadConfig t l.config = .ok config)
    (h : loadPackage t { config with source := l.path.getD config.source } = .error c) :
    listed t l = .error c := by
  simp only [listed, hconfig, bind, Except.bind, h]

/-- The list stops exactly when the run has no index. Otherwise it has a row for each resource and each
failure of the report, and calls the same registries unreadable. -/
theorem list_agrees_with_generate (h : RunAlike t a l config template files) :
    ((runList t l).exitCode = 2 ↔ ∃ e, (a.override config).generator.index files = .error e) ∧
    (∀ e, (a.override config).generator.index files = .error e →
      (runList t l).complaints = [.run e] ∧ plan t a = .error (.run e)) ∧
    ∀ index registry, (a.override config).generator.index files = .ok (index, registry) →
      ∃ p rows, plan t a = .ok p ∧
        (runList t l).output = listing (a.override config).kind.types
          (p.report.registryFailures.map (·.type)) rows ∧
        (runList t l).complaints = p.report.registryFailures.map .registry ∧
        ((runList t l).exitCode = 1 ↔ p.report.registryFailures ≠ []) ∧
        rows.Pairwise Row.Before ∧
        p.report.runs.Perm (rows.map Row.run) ∧
        p.report.resources = rows.filterMap (fun row =>
          (((a.override config).generator.workshop index).buildTarget row.target).toOption) ∧
        p.report.failures = rows.filterMap fun row =>
          failure? (((a.override config).generator.workshop index).buildTarget row.target) := by
  have hplan := h.plan_eq
  have hlisted := h.listed_eq
  cases hindex : (a.override config).generator.index files with
  | error e =>
      rw [hindex] at hplan hlisted
      rw [runList_of_error hlisted]
      refine ⟨iff_of_true rfl ⟨e, rfl⟩, fun e' he => ?_, fun index registry hok => (nomatch hok)⟩
      cases he
      exact ⟨rfl, hplan⟩
  | ok indexed =>
      obtain ⟨index, registry⟩ := indexed
      obtain ⟨provider, rfl⟩ := extract_of_index hindex
      have hselection : (a.override config).selection = ⟨[], (a.override config).kind⟩ :=
        congrArg (Selection.mk · _) h.resources
      rw [hindex, hselection] at hplan
      rw [hindex] at hlisted
      rw [runList_eq hlisted]
      refine ⟨iff_of_false ?_ fun ⟨e, he⟩ => (nomatch he), fun e he => (nomatch he),
        fun index' registry' hok => ?_⟩
      · dsimp only
        split <;> decide
      · cases hok
        refine ⟨_, (a.override config).kind.types.flatMap (rowsOf (.extract provider)), hplan,
          listing_rows provider (a.override config).kind, rfl, ?_, pairwise_rows _ _,
          runs_perm_rows _ index _, resources_rows _ index _, failures_rows _ index _⟩
        dsimp only [Generator.collected]
        split
        · next hnone => simp [hnone]
        · next hsome => simp [hsome]

end Commands

def diskSource : String :=
  "package p\nimport \"github.com/hashicorp/terraform/terraform\"\n"
    ++ "func P() terraform.ResourceProvider \x7b\n"
    ++ "return T\x7bResourcesMap: T\x7b\"azurerm_disk\": disk()\x7d\x7d\n\x7d"

def diskTree : Files.Tree :=
  ⟨[(["p.go"], .file diskSource.toUTF8), (["page"], .file "".toUTF8)], []⟩

def diskGenerate : GenerateArguments :=
  { path := some "p.go", config := none, resources := [], kind := none, output := none
    template := some "page", format := "json", scan := none, failFast := false, parallel := false, dryRun := false }

def diskList : ListArguments :=
  { path := some "p.go", config := none, kind := none }

theorem runList_disk : (runList diskTree diskList).exitCode = 1 ∧
    (runList diskTree diskList).output = "Data sources: unreadable\n\nResources (1):\n"
      ++ "  azurerm_disk                             disk\n\n" := by
  decide +kernel

theorem loadConfig_disk : loadConfig diskTree none = .ok .standard := by
  have hpath : configPath? diskTree none = none := Option.isNone_iff_eq_none.1 (by decide +kernel)
  rw [loadConfig, hpath]
  rfl

theorem loadPackage_disk : ∃ files,
    loadPackage diskTree { Config.standard with source := "p.go" } = .ok files := by
  cases hload : loadPackage diskTree { Config.standard with source := "p.go" } with
  | ok files => exact ⟨files, rfl⟩
  | error c =>
      -- the list would have stopped
      have hlisted : listed diskTree diskList = .error c :=
        listed_of_loadPackage_error loadConfig_disk hload
      have hexit := runList_disk.1
      rw [runList_of_error hlisted] at hexit
      cases hexit

theorem loadTemplate_disk : loadTemplate diskTree (some "page") = .ok [.text ""] := by
  decide +kernel

theorem disk_listed_and_reported : ∃ files,
    RunAlike diskTree diskGenerate diskList .standard [.text ""] files ∧
    (runList diskTree diskList).exitCode = 1 ∧
    ∃ p rows, plan diskTree diskGenerate = .ok p ∧ p.report.registryFailures ≠ [] ∧
      rows.Pairwise Row.Before ∧ p.report.runs.Perm (rows.map Row.run) ∧
      listing [.datasource, .resource] (p.report.registryFailures.map (·.type)) rows =
        "Data sources: unreadable\n\nResources (1):\n"
          ++ "  azurerm_disk                             disk\n\n" := by
  obtain ⟨files, hfiles⟩ := loadPackage_disk
  have halike : RunAlike diskTree diskGenerate diskList .standard [.text ""] files :=
    ⟨loadConfig_disk, loadConfig_disk, .inr rfl, rfl, rfl, rfl, rfl, rfl, loadTemplate_disk,
      (loadPackage_override ..).trans hfiles⟩
  obtain ⟨hexit, houtput⟩ := runList_disk
  obtain ⟨hstops, -, hrows⟩ := list_agrees_with_generate halike
  cases hindex : (diskGenerate.override .standard).generator.index files with
  | error e => exact absurd (hexit.symm.trans (hstops.2 ⟨e, hindex⟩)) (by decide)
  | ok indexed =>
      obtain ⟨p, rows, hplan, hlisting, -, hfails, hordered, hruns, -, -⟩ := hrows _ _ hindex
      exact ⟨files, halike, hexit, p, rows, hplan, hfails.1 hexit, hordered, hruns,
        hlisting.symm.trans houtput⟩

end ProviderManual.CommandLine
