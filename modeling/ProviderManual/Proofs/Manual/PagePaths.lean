import ProviderManual.Manual.Page
import ProviderManual.Proofs.Files.Places
import ProviderManual.Proofs.Manual.Report

/-! Where the pages of a report are written. -/

namespace ProviderManual.Manual

open ProviderManual.Schema ProviderManual.Files
open ProviderManual.Source (Expr File Func unquote)

def Resource.pageName (r : Resource) : String :=
  r.nameSuffix ++ ".html.markdown"

section Places

variable {t : Tree} {root : String} {r r' : Resource}

theorem placeOf_join_dir (t : Tree) (root : String) (type : ResourceType) :
    t.placeOf (join root type.dir) = t.placeOf root ++ [type.dir] := by
  have hdescends : Descends type.dir := by cases type <;> decide
  have hnames : names type.dir = [type.dir] := by cases type <;> rfl
  rw [Tree.placeOf_join_of_descends hdescends, hnames]

theorem placeOf_pagePath (t : Tree) (root : String) (r : Resource) :
    t.placeOf (r.pagePath root) =
      Tree.destination (if IsAbsolute r.pageName then [] else t.placeOf root ++ [r.type.dir])
        (names r.pageName) := by
  change t.placeOf (join (join root r.type.dir) r.pageName) = _
  split
  · next habsolute =>
      rw [join_of_isAbsolute habsolute, Tree.placeOf, Tree.start_of_isAbsolute habsolute]
  · next hrelative => rw [Tree.placeOf_join hrelative, placeOf_join_dir]

theorem placeOf_pagePath_of_descends (h : Descends r.pageName) (t : Tree) (root : String) :
    t.placeOf (r.pagePath root) = t.placeOf root ++ r.type.dir :: names r.pageName := by
  rw [placeOf_pagePath, if_neg h.not_isAbsolute, Tree.destination_of_descends h, List.append_assoc]
  rfl

theorem dir_injective : Function.Injective ResourceType.dir := by
  intro type type' h
  cases type <;> cases type' <;> first | rfl | exact absurd h (by decide)

theorem type_and_suffix_of_placeOf_eq (hr : Descends r.pageName) (hr' : Descends r'.pageName)
    (h : t.placeOf (r.pagePath root) = t.placeOf (r'.pagePath root)) :
    r.type = r'.type ∧ r.nameSuffix = r'.nameSuffix := by
  rw [placeOf_pagePath_of_descends hr, placeOf_pagePath_of_descends hr', List.append_cancel_left_eq,
    List.cons.injEq] at h
  obtain ⟨hdir, hnames⟩ := h
  exact ⟨dir_injective hdir, (String.append_left_inj _).1 (names_injective hnames)⟩

end Places

section Writing

variable {template : List Template.Node} {root : String}

theorem of_writePage {t t' : Tree} {r : Resource} {path : String}
    (h : r.writePage template root t = (t', .ok path)) :
    path = r.pagePath root ∧ ∃ made page, Tree.SameFiles t made ∧ r.render template = .ok page ∧
      t.placeOf (r.pagePath root) ≠ [] ∧
      t' = made.set (t.placeOf (r.pagePath root)) (.file page.toUTF8) := by
  unfold Resource.writePage at h
  dsimp only at h
  split at h
  · cases h
  · next made hmade =>
      have hsame := Tree.sameFiles_of_createDirectory hmade
      split at h
      · cases h
      · next page hpage =>
          split at h
          · cases h
          · next written hwritten =>
              cases h
              rw [← hsame.placeOf]
              exact ⟨rfl, made, page, hsame, hpage, Tree.of_write hwritten⟩

theorem sameFilesBeyond_of_writePage {t t' : Tree} {r : Resource} {result : Except PageFault String}
    (h : r.writePage template root t = (t', result)) :
    Tree.SameFilesBeyond [t.placeOf (r.pagePath root)] t t' := by
  cases result with
  | ok path =>
      obtain ⟨-, made, page, hsame, -, hne, rfl⟩ := of_writePage h
      exact (hsame.beyond []).trans (Tree.sameFilesBeyond_set hne made _)
  | error f =>
      -- at most directories are made before a page fails
      unfold Resource.writePage at h
      dsimp only at h
      split at h
      · cases h
        exact (Tree.SameFiles.refl t).beyond _
      · next made hmade =>
          have hsame := Tree.sameFiles_of_createDirectory hmade
          split at h
          · cases h
            exact hsame.beyond _
          · split at h
            · cases h
              exact hsame.beyond _
            · cases h

theorem sameFilesBeyond_of_writePages {t t' : Tree} {rs : List Resource}
    {result : Except PageFault (List String)} (h : writePages template root t rs = (t', result)) :
    Tree.SameFilesBeyond (rs.map fun r => t.placeOf (r.pagePath root)) t t' := by
  fun_induction writePages template root t rs generalizing result with
  | case1 t =>
      cases h
      exact (Tree.SameFiles.refl _).beyond []
  | case2 t r rs t₁ f hwrite =>
      cases h
      have hfirst := sameFilesBeyond_of_writePage hwrite
      exact hfirst.trans ((Tree.SameFiles.refl _).beyond _)
  | case3 t r rs t₁ path hwrite t₂ f hrest ih | case4 t r rs t₁ path hwrite t₂ paths hrest ih =>
      cases h
      have hfirst := sameFilesBeyond_of_writePage hwrite
      have htail := ih hrest
      simp only [hfirst.placeOf] at htail
      exact hfirst.trans htail

def IsLastAt (t : Tree) (root : String) (rs : List Resource) (p : Place) (r : Resource) : Prop :=
  ∃ before after, rs = before ++ r :: after ∧ t.placeOf (r.pagePath root) = p ∧
    ∀ r' ∈ after, t.placeOf (r'.pagePath root) ≠ p

theorem IsLastAt.cons {t : Tree} {rs : List Resource} {p : Place} {r : Resource}
    (h : IsLastAt t root rs p r) (first : Resource) : IsLastAt t root (first :: rs) p r := by
  obtain ⟨before, after, rfl, hplace, hafter⟩ := h
  exact ⟨first :: before, after, rfl, hplace, hafter⟩

theorem page_of_writePages {t t' : Tree} {rs : List Resource} {paths : List String}
    (h : writePages template root t rs = (t', .ok paths)) :
    paths = rs.map (·.pagePath root) ∧
    ∀ r ∈ rs, ∃ last page, IsLastAt t root rs (t.placeOf (r.pagePath root)) last ∧
      last.render template = .ok page ∧
      t'.find? (t.placeOf (r.pagePath root)) = some (.file page.toUTF8) := by
  fun_induction writePages template root t rs generalizing paths with
  | case1 t =>
      cases h
      exact ⟨rfl, fun r hr => absurd hr List.not_mem_nil⟩
  | case2 | case3 => cases h
  | case4 t first rs t₁ path hwrite t₂ paths₂ hrest ih =>
      cases h
      have hplaceOf := (sameFilesBeyond_of_writePage hwrite).placeOf
      obtain ⟨rfl, made, page, hsame, hpage, hne, rfl⟩ := of_writePage hwrite
      obtain ⟨rfl, hpages⟩ := ih hrest
      have hothers := sameFilesBeyond_of_writePages hrest
      simp only [IsLastAt, hplaceOf] at hpages hothers
      refine ⟨rfl, fun r hr => ?_⟩
      by_cases hlater : ∃ r' ∈ rs, t.placeOf (r'.pagePath root) = t.placeOf (r.pagePath root)
      · obtain ⟨r', hr', hplace⟩ := hlater
        obtain ⟨last, page', hlast, hrender, hfile⟩ := hpages r' hr'
        rw [hplace] at hlast hfile
        exact ⟨last, page', .cons hlast first, hrender, hfile⟩
      · -- no later page goes there, so it is the first page that stays
        have hafter : ∀ r' ∈ rs, t.placeOf (r'.pagePath root) ≠ t.placeOf (r.pagePath root) :=
          fun r' hr' hplace => hlater ⟨r', hr', hplace⟩
        obtain rfl : r = first := by
          rcases List.mem_cons.1 hr with rfl | hr
          · rfl
          · exact absurd rfl (hafter r hr)
        refine ⟨r, page, ⟨[], rs, rfl, rfl, hafter⟩, hpage, ?_⟩
        rw [hothers.file_iff _ (by simpa using hafter), Tree.find?_set _ _ _ _ hne, if_pos rfl]

theorem of_writePages {t t' : Tree} {rs : List Resource} {paths : List String}
    (h : writePages template root t rs = (t', .ok paths))
    (hplaces : (rs.map fun r => t.placeOf (r.pagePath root)).Nodup) :
    paths = rs.map (·.pagePath root) ∧
    (∀ r ∈ rs, ∃ page, r.render template = .ok page ∧
      t'.find? (t.placeOf (r.pagePath root)) = some (.file page.toUTF8)) ∧
    ∀ p ∉ rs.map (fun r => t.placeOf (r.pagePath root)), ∀ bytes,
      t'.find? p = some (.file bytes) ↔ t.find? p = some (.file bytes) := by
  obtain ⟨hpaths, hpages⟩ := page_of_writePages h
  refine ⟨hpaths, fun r hr => ?_, (sameFilesBeyond_of_writePages h).file_iff⟩
  obtain ⟨last, page, ⟨before, after, hrs, hplace, -⟩, hpage, hfile⟩ := hpages r hr
  obtain rfl : last = r := List.inj_on_of_nodup_map hplaces (by simp [hrs]) hr hplace
  exact ⟨page, hpage, hfile⟩

end Writing

/-- Where what follows the prefix descends, a page lies below the directory of its type and has a place
of its own. Where it begins with a slash, it leads to one place from every root and type. -/
theorem pages_of_report {g : Generator} {files : List File} {s : Selection} {report : Report}
    (h : g.generate files s = .ok report) (root : String) (t : Tree) :
    (∀ r ∈ report.resources, t.placeOf (r.pagePath root) =
      Tree.destination (if IsAbsolute r.pageName then [] else t.placeOf (join root r.type.dir))
        (names r.pageName)) ∧
    (∀ r ∈ report.resources, Descends r.pageName →
      t.placeOf (join root r.type.dir) = t.placeOf root ++ [r.type.dir] ∧
      t.placeOf (r.pagePath root) = t.placeOf (join root r.type.dir) ++ names r.pageName) ∧
    report.resources.Nodup ∧
    (∀ r ∈ report.resources, ∀ r' ∈ report.resources, Descends r.pageName → Descends r'.pageName →
      r ≠ r' → t.placeOf (r.pagePath root) ≠ t.placeOf (r'.pagePath root)) ∧
    ∀ template t' paths, (∀ r ∈ report.resources, Descends r.pageName) →
      writePages template root t report.resources = (t', .ok paths) →
      paths = report.resources.map (·.pagePath root) ∧
      ∀ r ∈ report.resources, ∃ page, r.render template = .ok page ∧
        t'.find? (t.placeOf (r.pagePath root)) = some (.file page.toUTF8) := by
  have hruns : (report.resources.map Resource.run).Nodup :=
    (List.nodup_append'.1 (Generator.nodup_runs_of_generate h)).1
  have hdistinct : ∀ r ∈ report.resources, ∀ r' ∈ report.resources, Descends r.pageName →
      Descends r'.pageName → t.placeOf (r.pagePath root) = t.placeOf (r'.pagePath root) → r = r' := by
    intro r hr r' hr' hd hd' hplace
    obtain ⟨htype, hsuffix⟩ := type_and_suffix_of_placeOf_eq hd hd' hplace
    have hname : r.name = r'.name := by
      rw [name_of_mem_resources h hr, name_of_mem_resources h hr', hsuffix]
    exact List.inj_on_of_nodup_map hruns hr hr' (Prod.ext htype hname)
  refine ⟨fun r _ => ?_, fun r _ hd => ⟨placeOf_join_dir t root r.type, ?_⟩, hruns.of_map _,
    fun r hr r' hr' hd hd' hne hplace => hne (hdistinct r hr r' hr' hd hd' hplace),
    fun template t' paths hdescends hwrite => ?_⟩
  · rw [placeOf_pagePath, placeOf_join_dir]
  · rw [placeOf_pagePath_of_descends hd, placeOf_join_dir, List.append_assoc]
    rfl
  · have hplaces : (report.resources.map fun r => t.placeOf (r.pagePath root)).Nodup :=
      List.Nodup.map_on (fun r hr r' hr' hplace =>
        hdistinct r hr r' hr' (hdescends r hr) (hdescends r' hr') hplace) (hruns.of_map _)
    obtain ⟨hpaths, hpages, -⟩ := of_writePages hwrite hplaces
    exact ⟨hpaths, hpages⟩

def acmeTwinProvider (key : String) : Func :=
  let entries := Expr.composite none [.keyValue (.basicLit .string key) (.call (.ident "disk") [])]
  { acmeProvider with
    body := [.ret [.composite none [
      .keyValue (.ident "DataSourcesMap") entries, .keyValue (.ident "ResourcesMap") entries]]] }

def acmeTwinFile (key : String) : File :=
  { acmeFile with funcs := [acmeTwinProvider key, acmeDisk] }

def acmeTwin (type : ResourceType) (suffix : String) : Resource :=
  ⟨"acme", "acme_" ++ suffix, suffix, "", "", type, []⟩

def acmeTwinReport (suffix : String) : Report :=
  ⟨[acmeTwin .datasource suffix, acmeTwin .resource suffix], [], []⟩

theorem constructorNames_acmeTwins {key name : String} (hkey : unquote key = .ok name)
    (type : ResourceType) :
    constructorNames type (some (.composite none
      [.keyValue (.basicLit .string key) (.call (.ident "disk") [])])) =
        .ok (Text.Table.empty.insert name "disk") := by
  simp [constructorNames, readEntries, entryOf, entryName, entryConstructor, hkey, Except.map,
    Text.Table.ofList, pure, Except.pure, bind, Except.bind]

theorem generate_acmeTwinFile {key suffix : String} (hkey : unquote key = .ok ("acme_" ++ suffix)) :
    acmeGenerator.generate [acmeTwinFile key] ⟨[], .all⟩ = .ok (acmeTwinReport suffix) := by
  let index : Index :=
    { acmeIndex with provider := some ⟨acmeTwinProvider key, acmeImports, "acme.go"⟩ }
  let entries : Entries := Text.Table.empty.insert ("acme_" ++ suffix) "disk"
  have hsort : Text.sortOn File.path [acmeTwinFile key] = [acmeTwinFile key] :=
    List.mergeSort_singleton _
  have hbuild : Index.build acmeGenerator.modules acmeGenerator.scan [acmeTwinFile key] =
      .ok index := by
    rw [Index.build, hsort]
    rfl
  have hextract : Registry.extract (acmeTwinProvider key) = ⟨.ok entries, .ok entries⟩ :=
    congrArg₂ Registry.mk (constructorNames_acmeTwins hkey .datasource)
      (constructorNames_acmeTwins hkey .resource)
  have hindex : acmeGenerator.index [acmeTwinFile key] = .ok (index, ⟨.ok entries, .ok entries⟩) := by
    rw [Generator.index, hbuild, ← hextract]
  have hselect : select ⟨.ok entries, .ok entries⟩ ⟨[], .all⟩ =
      [⟨.datasource, "acme_" ++ suffix, some "disk"⟩, ⟨.resource, "acme_" ++ suffix, some "disk"⟩] := rfl
  have hbuildTarget (type : ResourceType) :
      (acmeGenerator.workshop index).buildTarget ⟨type, "acme_" ++ suffix, some "disk"⟩ =
        .ok (acmeTwin type suffix) := by
    have hschema : findSchemaField acmeDisk.roots = .ok (some ⟨none, []⟩) := rfl
    exact build_of_no_elements (w := acmeGenerator.workshop index)
      (d := ⟨acmeDisk, acmeImports, "acme.go"⟩) (suffixOf?_eq_some_iff.2 rfl) hschema
  rw [Generator.generate_of_keepGoing rfl, hindex]
  simp only [Except.map, Generator.collected, Generator.outcomes, hselect, List.map_cons, List.map_nil,
    hbuildTarget]
  rfl

theorem slash_pages_coincide_outside_root :
    acmeGenerator.generate [acmeTwinFile "\x60acme_/disk\x60"] ⟨[], .all⟩ =
      .ok (acmeTwinReport "/disk") ∧
    (acmeTwinReport "/disk").resources.Nodup ∧
    ∀ r ∈ (acmeTwinReport "/disk").resources, r.pagePath "docs" = "/disk.html.markdown" ∧
      ¬ Tree.placeOf ⟨[], []⟩ (join "docs" r.type.dir) <+:
        Tree.placeOf ⟨[], []⟩ (r.pagePath "docs") := by
  refine ⟨generate_acmeTwinFile rfl, ?_, ?_⟩
  · simp [acmeTwinReport, acmeTwin]
  · decide +kernel

theorem acme_twins_written_to_two_files :
    acmeGenerator.generate [acmeTwinFile "\x60acme_disk\x60"] ⟨[], .all⟩ =
      .ok (acmeTwinReport "disk") ∧
    (∀ r ∈ (acmeTwinReport "disk").resources, Descends r.pageName) ∧
    ∃ t', writePages [] "docs" ⟨[], []⟩ (acmeTwinReport "disk").resources =
        (t', .ok ["docs/d/disk.html.markdown", "docs/r/disk.html.markdown"]) ∧
      t'.find? ["docs", "d", "disk.html.markdown"] = some (.file "".toUTF8) ∧
      t'.find? ["docs", "r", "disk.html.markdown"] = some (.file "".toUTF8) := by
  have hgenerate : acmeGenerator.generate [acmeTwinFile "\x60acme_disk\x60"] ⟨[], .all⟩ =
      .ok (acmeTwinReport "disk") := generate_acmeTwinFile rfl
  have hdescends : ∀ r ∈ (acmeTwinReport "disk").resources, Descends r.pageName := by
    decide +kernel
  obtain ⟨t', paths, hwrite⟩ : ∃ t' paths,
      writePages [] "docs" ⟨[], []⟩ (acmeTwinReport "disk").resources = (t', .ok paths) := ⟨_, _, rfl⟩
  obtain ⟨-, -, -, -, hpages⟩ := pages_of_report hgenerate "docs" ⟨[], []⟩
  obtain ⟨rfl, hpages⟩ := hpages [] t' paths hdescends hwrite
  refine ⟨hgenerate, hdescends, t', hwrite, ?_, ?_⟩
  · obtain ⟨page, hrender, hfile⟩ := hpages (acmeTwin .datasource "disk") (by simp [acmeTwinReport])
    cases hrender
    exact hfile
  · obtain ⟨page, hrender, hfile⟩ := hpages (acmeTwin .resource "disk") (by simp [acmeTwinReport])
    cases hrender
    exact hfile

end ProviderManual.Manual
