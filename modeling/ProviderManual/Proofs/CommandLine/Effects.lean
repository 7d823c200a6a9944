import ProviderManual.Proofs.CommandLine.Listing
import ProviderManual.Proofs.Manual.PagePaths

/-! What a run does to the files. -/

namespace ProviderManual.CommandLine

open ProviderManual.Schema ProviderManual.Manual ProviderManual.Source

structure Plan.ReadFrom (p : Plan) (t : Files.Tree) (a : GenerateArguments) (files : List File) :
    Prop where
  config : ∃ c, loadConfig t a.config = .ok c ∧ p.config = a.override c
  template : loadTemplate t p.config.template = .ok p.template
  package : loadPackage t p.config = .ok files
  report : p.config.generator.generate files p.config.selection = .ok p.report

def Plan.pagePlaces (p : Plan) (t : Files.Tree) : List Files.Place :=
  p.report.resources.map fun r => t.placeOf (r.pagePath p.config.output)

section Planning

variable {α β : Type} {t : Files.Tree} {a : GenerateArguments}

theorem bind_eq_ok_iff {ε : Type} {x : Except ε α} {f : α → Except ε β} {b : β} :
    (x >>= f) = .ok b ↔ ∃ a, x = .ok a ∧ f a = .ok b := by
  cases x <;> simp [bind, Except.bind]

theorem plan_eq_ok_iff {p : Plan} :
    plan t a = .ok p ↔ (a.format = "markdown" ∨ a.format = "json") ∧ ∃ files, p.ReadFrom t a files := by
  rw [plan]
  split
  · next hformat =>
      refine iff_of_false (fun hp => ?_) fun h => hformat.elim fun hm hj => h.1.elim hm hj
      cases hp
  · next hformat =>
      have hknown : a.format = "markdown" ∨ a.format = "json" := by
        rwa [not_and_or, not_ne_iff, not_ne_iff] at hformat
      simp only [bind_eq_ok_iff, hknown, true_and]
      constructor
      · rintro ⟨c, hconfig, template, htemplate, files, hpackage, h⟩
        split at h
        · cases h
        · next report hreport =>
            cases h
            exact ⟨files, ⟨c, hconfig, rfl⟩, htemplate, hpackage, hreport⟩
      · rintro ⟨files, ⟨c, hconfig, hoverride⟩, htemplate, hpackage, hreport⟩
        obtain ⟨config, template, report⟩ := p
        dsimp only at hoverride
        subst hoverride
        refine ⟨c, hconfig, template, htemplate, files, hpackage, ?_⟩
        rw [hreport]
        rfl

def FailsUnwritten (r : Except Complaint α) : Prop :=
  ∀ f, r ≠ .error (.page f)

namespace FailsUnwritten

theorem bind {x : Except Complaint α} {f : α → Except Complaint β} (hx : FailsUnwritten x)
    (hf : ∀ y, FailsUnwritten (f y)) : FailsUnwritten (x >>= f) := by
  cases x with
  | error c =>
      intro fault h
      cases h
      exact hx fault rfl
  | ok y => exact hf y

theorem readConfig (t : Files.Tree) (path : String) : FailsUnwritten (readConfig t path) := by
  unfold CommandLine.readConfig
  split
  · nofun
  · split <;> nofun

theorem loadConfig (t : Files.Tree) (named : Option String) : FailsUnwritten (loadConfig t named) := by
  unfold CommandLine.loadConfig
  dsimp only
  have hstandard : FailsUnwritten (pure Config.standard) := by
    intro f h
    cases h
  split
  · refine bind hstandard fun c => ?_
    split <;> rintro f ⟨⟩
  · refine bind (readConfig t _) fun c => ?_
    split <;> rintro f ⟨⟩

theorem loadTemplate (t : Files.Tree) (path : Option String) : FailsUnwritten (loadTemplate t path) := by
  unfold CommandLine.loadTemplate
  cases path with
  | none =>
      -- whether the standard template can be parsed does not matter here, and takes long to find out
      generalize Template.parse standardTemplate = parsed
      cases parsed <;> nofun
  | some path =>
      dsimp only
      split
      · nofun
      · split <;> nofun

theorem loadPackage (t : Files.Tree) (c : Config) : FailsUnwritten (loadPackage t c) := by
  unfold CommandLine.loadPackage
  split <;> nofun

theorem plan (t : Files.Tree) (a : GenerateArguments) : FailsUnwritten (plan t a) := by
  unfold CommandLine.plan
  split
  · nofun
  · refine bind (loadConfig t _) fun c => bind (loadTemplate t _) fun template =>
      bind (loadPackage t _) fun files => ?_
    split <;> nofun

end FailsUnwritten

end Planning

section Running

variable {color : Bool} {t : Files.Tree} {a : GenerateArguments} {p : Plan}

theorem writes_eq_false (h : a.dryRun = true ∨ a.format = "json") : a.writes = false := by
  unfold GenerateArguments.writes
  rcases h with h | h <;> simp [h]

theorem exitCode_eq (p : Plan) :
    p.exitCode = if p.report.failures = [] ∧ p.report.registryFailures = [] then 0 else 1 := by
  simp only [Plan.exitCode, Report.isSuccess_iff]

theorem runGenerate_of_error {c : Complaint} (h : plan t a = .error c) :
    runGenerate color t a = ⟨2, "", [c], t⟩ := by
  rw [runGenerate, h]
  rfl

theorem runGenerate_of_unwritten (h : plan t a = .ok p) (hwrites : a.writes = false) :
    runGenerate color t a = ⟨p.exitCode, p.output color a [], [], t⟩ := by
  simp only [runGenerate, h, hwrites]
  rfl

theorem runGenerate_of_written (h : plan t a = .ok p) (hwrites : a.writes = true) :
    runGenerate color t a =
      match writePages p.template p.config.output t p.report.resources with
      | (t', .error f) => ⟨2, "", [.page f], t'⟩
      | (t', .ok written) => ⟨p.exitCode, p.output color a written, [], t'⟩ := by
  simp only [runGenerate, h, hwrites, if_true]
  rfl

theorem files_of_stopped (hexit : (runGenerate color t a).exitCode = 2)
    (hpage : ∀ f, (runGenerate color t a).complaints ≠ [.page f]) :
    (runGenerate color t a).files = t := by
  cases hplan : plan t a with
  | error c => rw [runGenerate_of_error hplan]
  | ok p =>
      cases hwrites : a.writes with
      | false => rw [runGenerate_of_unwritten hplan hwrites]
      | true =>
          rw [runGenerate_of_written hplan hwrites] at hexit hpage ⊢
          split at hexit
          · next t' f hwrite =>
              rw [hwrite] at hpage
              exact absurd rfl (hpage f)
          · -- a run that is through ends with 0 or 1
            rw [exitCode_eq] at hexit
            split at hexit <;> cases hexit

theorem sameFilesBeyond_runGenerate (h : plan t a = .ok p) :
    Files.Tree.SameFilesBeyond (p.pagePlaces t) t (runGenerate color t a).files := by
  cases hwrites : a.writes with
  | false =>
      rw [runGenerate_of_unwritten h hwrites]
      exact (Files.Tree.SameFiles.refl t).beyond _
  | true =>
      rw [runGenerate_of_written h hwrites]
      split <;> next hwrite => exact sameFilesBeyond_of_writePages hwrite

end Running

/-- A run that writes no pages, or stops before the first, leaves the tree as it is. Any other changes
files only where the pages of its report are, and writes the pages of all that is built. -/
theorem runGenerate_changes_pages_only (color : Bool) (t : Files.Tree) (a : GenerateArguments) :
    (a.dryRun = true ∨ a.format = "json" → (runGenerate color t a).files = t) ∧
    ((runGenerate color t a).exitCode = 2 → (∀ f, (runGenerate color t a).complaints ≠ [.page f]) →
      (runGenerate color t a).files = t) ∧
    (∀ c, plan t a = .error c → (∀ f, c ≠ .page f) ∧
      (runGenerate color t a).exitCode = 2 ∧ (runGenerate color t a).complaints = [c]) ∧
    ∀ p, plan t a = .ok p →
      (∃ files, p.ReadFrom t a files) ∧
      Files.Tree.SameFilesBeyond (p.pagePlaces t) t (runGenerate color t a).files ∧
      ((runGenerate color t a).complaints = [] → (runGenerate color t a).exitCode =
        if p.report.failures = [] ∧ p.report.registryFailures = [] then 0 else 1) ∧
      (a.writes = false → (runGenerate color t a).complaints = []) ∧
      (a.writes = true →
        (∀ t' written, writePages p.template p.config.output t p.report.resources = (t', .ok written) →
          (runGenerate color t a).complaints = [] ∧ (runGenerate color t a).files = t' ∧
          (runGenerate color t a).output = p.output color a written ∧
          written = p.report.resources.map (·.pagePath p.config.output) ∧
          ∀ r ∈ p.report.resources, ∃ last page,
            IsLastAt t p.config.output p.report.resources (t.placeOf (r.pagePath p.config.output)) last ∧
            last.render p.template = .ok page ∧
            t'.find? (t.placeOf (r.pagePath p.config.output)) = some (.file page.toUTF8)) ∧
        ∀ t' f, writePages p.template p.config.output t p.report.resources = (t', .error f) →
          (runGenerate color t a).exitCode = 2 ∧ (runGenerate color t a).complaints = [.page f]) := by
  refine ⟨fun hunwritten => ?_, files_of_stopped, fun c hplan => ?_, fun p hplan =>
    ⟨(plan_eq_ok_iff.1 hplan).2, sameFilesBeyond_runGenerate hplan, fun hthrough => ?_, fun hwrites => ?_,
      fun hwrites => ⟨fun t' written hwrite => ?_, fun t' f hwrite => ?_⟩⟩⟩
  · cases hplan : plan t a with
    | error c => rw [runGenerate_of_error hplan]
    | ok p => rw [runGenerate_of_unwritten hplan (writes_eq_false hunwritten)]
  · rw [runGenerate_of_error hplan]
    refine ⟨fun f hc => FailsUnwritten.plan t a f ?_, rfl, rfl⟩
    rw [hplan, hc]
  · rw [← exitCode_eq]
    cases hwrites : a.writes with
    | false => rw [runGenerate_of_unwritten hplan hwrites]
    | true =>
        rw [runGenerate_of_written hplan hwrites] at hthrough ⊢
        split at hthrough
        · cases hthrough
        · rfl
  · rw [runGenerate_of_unwritten hplan hwrites]
  · rw [runGenerate_of_written hplan hwrites, hwrite]
    obtain ⟨hpaths, hpages⟩ := page_of_writePages hwrite
    exact ⟨rfl, rfl, rfl, hpaths, hpages⟩
  · rw [runGenerate_of_written hplan hwrites, hwrite]
    exact ⟨rfl, rfl⟩

def pagedSource : String :=
  "package p\nimport \"github.com/hashicorp/terraform/terraform\"\n"
    ++ "import \"github.com/hashicorp/terraform/helper/schema\"\n"
    ++ "func P() terraform.ResourceProvider \x7b\n"
    ++ "return T\x7bResourcesMap: T\x7b\"azurerm_disk\": disk(), \"azurerm_net\": net()\x7d\x7d\n\x7d\n"
    ++ "func disk() schema.Resource \x7b\nreturn T\x7bSchema: T\x7b\x7d\x7d\n\x7d"

def pagedTree : Files.Tree :=
  ⟨[(["p.go"], .file pagedSource.toUTF8), (["page"], .file "".toUTF8)], []⟩

def pagedGenerate : GenerateArguments :=
  { diskGenerate with format := "markdown" }

def pagedConfig : Config :=
  pagedGenerate.override .standard

def pagedTargets : List Target :=
  [⟨.resource, "azurerm_disk", some "disk"⟩, ⟨.resource, "azurerm_net", some "net"⟩]

def pagedDisk : Resource :=
  ⟨"azurerm", "azurerm_disk", "disk", "", "", .resource, []⟩

def declaresEmptySchema (d : Decl) : Bool :=
  docDescription d.func.doc = "" &&
    match findSchemaField d.func.roots with
    | .ok (some l) => l.elements.isEmpty
    | _ => false

def isPaged (t : Files.Tree) (c : Config) : Bool :=
  match loadPackage t c with
  | .error _ => false
  | .ok files =>
      match c.generator.index files with
      | .error _ => false
      | .ok (index, registry) =>
          decide (select registry c.selection = pagedTargets) &&
            ((index.resource? "net").isNone && (index.resource? "disk").any declaresEmptySchema)

theorem index_of_isPaged {t : Files.Tree} {c : Config} (h : isPaged t c = true) :
    ∃ files index registry d, loadPackage t c = .ok files ∧ c.generator.index files = .ok (index, registry) ∧
      select registry c.selection = pagedTargets ∧ index.resource? "net" = none ∧
      index.resource? "disk" = some d ∧ declaresEmptySchema d = true := by
  unfold isPaged at h
  split at h
  · cases h
  · next files hload =>
      split at h
      · cases h
      · next index registry hindex =>
          simp only [Bool.and_eq_true, decide_eq_true_eq, Option.isNone_iff_eq_none,
            Option.any_eq_true_iff_get] at h
          obtain ⟨hselect, hnet, hsome, hdisk⟩ := h
          exact ⟨files, index, registry, _, hload, hindex, hselect, hnet, (Option.some_get hsome).symm,
            hdisk⟩

theorem build_of_declaresEmptySchema {w : Workshop} {name suffix : String} {type : ResourceType}
    {d : Decl} (hsuffix : suffixOf? w.namePrefix name = some suffix) (h : declaresEmptySchema d = true) :
    w.build name type d = .ok ⟨w.provider, name, suffix, "", "", type, []⟩ := by
  rw [declaresEmptySchema, Bool.and_eq_true, decide_eq_true_eq] at h
  obtain ⟨hdoc, hschema⟩ := h
  split at hschema
  · next l hfound =>
      obtain ⟨literalType, elements⟩ := l
      obtain rfl : elements = [] := List.isEmpty_iff.1 hschema
      rw [build_of_no_elements hsuffix hfound, hdoc]
  · cases hschema

theorem plan_paged : ∃ p, plan pagedTree pagedGenerate = .ok p ∧ p.config = pagedConfig ∧
    p.template = [.text ""] ∧ p.report.resources = [pagedDisk] ∧ p.report.failures ≠ [] := by
  have hpaged : isPaged pagedTree pagedConfig = true := by decide +kernel
  obtain ⟨files, index, registry, d, hload, hindex, hselect, hnet, hdisk, hempty⟩ := index_of_isPaged hpaged
  have hconfig : loadConfig pagedTree none = .ok .standard := by
    have hpath : configPath? pagedTree none = none := Option.isNone_iff_eq_none.1 (by decide +kernel)
    rw [loadConfig, hpath]
    rfl
  have htemplate : loadTemplate pagedTree (some "page") = .ok [.text ""] := by
    decide +kernel
  let w := pagedConfig.generator.workshop index
  have hbuilt : w.buildTarget ⟨.resource, "azurerm_disk", some "disk"⟩ = .ok pagedDisk := by
    have hsuffix : suffixOf? "azurerm_" "azurerm_disk" = some "disk" := by decide +kernel
    simp only [w, Generator.workshop, Workshop.buildTarget, hdisk]
    exact build_of_declaresEmptySchema hsuffix hempty
  have hfailed : w.buildTarget ⟨.resource, "azurerm_net", some "net"⟩ =
      .error ⟨"azurerm_net", .resource, [⟨[], .unresolvedConstructor "net"⟩]⟩ := by
    simp only [w, Generator.workshop, Workshop.buildTarget, hnet]
  have houtcomes : pagedConfig.generator.outcomes index registry pagedConfig.selection =
      [.ok pagedDisk, .error ⟨"azurerm_net", .resource, [⟨[], .unresolvedConstructor "net"⟩]⟩] := by
    rw [Generator.outcomes, hselect, pagedTargets, List.map_cons, List.map_singleton, hbuilt, hfailed]
  let report := pagedConfig.generator.collected pagedConfig.selection index registry
  have hgenerate : pagedConfig.generator.generate files pagedConfig.selection = .ok report := by
    rw [Generator.generate_of_keepGoing rfl, hindex]
    rfl
  refine ⟨⟨pagedConfig, [.text ""], report⟩, ?_, rfl, rfl, ?_, ?_⟩
  · exact plan_eq_ok_iff.2 ⟨.inl rfl, files, ⟨.standard, hconfig, rfl⟩, htemplate, hload, hgenerate⟩
  · simp only [report, Generator.collected, houtcomes, built_ok_cons, built_error_cons, built_nil]
  · simp only [report, Generator.collected, houtcomes]
    exact List.cons_ne_nil _ _

theorem paged_disk_written_beside_failed_net : ∃ p, plan pagedTree pagedGenerate = .ok p ∧
    pagedGenerate.writes = true ∧ p.report.failures ≠ [] ∧
    (runGenerate false pagedTree pagedGenerate).exitCode = 1 ∧
    (runGenerate false pagedTree pagedGenerate).files.find?
      ["website", "docs", "r", "disk.html.markdown"] = some (.file "".toUTF8) := by
  obtain ⟨p, hplan, hconfig, htemplate, hresources, hfailures⟩ := plan_paged
  have hwrites : pagedGenerate.writes = true := rfl
  obtain ⟨-, -, -, hplanned⟩ := runGenerate_changes_pages_only false pagedTree pagedGenerate
  obtain ⟨-, -, hexit, -, hwritten⟩ := hplanned p hplan
  rw [hconfig, htemplate, hresources] at hwritten
  obtain ⟨t', hwrite⟩ : ∃ t', writePages [.text ""] pagedConfig.output pagedTree [pagedDisk] =
      (t', .ok ["website/docs/r/disk.html.markdown"]) := ⟨_, rfl⟩
  obtain ⟨hthrough, rfl, -, -, hpages⟩ := (hwritten hwrites).1 _ _ hwrite
  obtain ⟨last, page, -, hrender, hfile⟩ := hpages pagedDisk (List.mem_singleton.2 rfl)
  refine ⟨p, hplan, hwrites, hfailures, ?_, ?_⟩
  · rw [hexit hthrough, if_neg fun h => hfailures h.1]
  · cases hrender
    exact hfile

end ProviderManual.CommandLine
