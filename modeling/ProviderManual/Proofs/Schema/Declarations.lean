import Mathlib.Data.List.Nodup
import ProviderManual.Schema.Index

/-! The index of a package as a function of its files. -/

namespace ProviderManual.Source

open ProviderManual.Text ProviderManual.Schema

def ImportSpec.fault? (spec : ImportSpec) : Option LiteralError :=
  if spec.name = some "_" then none
  else match unquote spec.path with
    | .ok _ => none
    | .error e => some e

def ImportSpec.binding? (spec : ImportSpec) : Option (String × String) :=
  if spec.name = some "_" then none
  else match unquote spec.path with
    | .ok path => some (boundName spec.name path, path)
    | .error _ => none

def File.bindings (f : File) : List (String × String) :=
  f.imports.filterMap ImportSpec.binding?

def File.importMap (f : File) : ImportMap :=
  Table.ofList f.bindings

def File.decls (f : File) : List Decl :=
  f.funcs.map fun func => ⟨func, f.importMap, f.path⟩

/-- The first import that cannot be read; a blank one is not read. -/
def File.importError? (f : File) : Option RunError :=
  (f.imports.findSome? ImportSpec.fault?).map (.invalidImport f.path)

end ProviderManual.Source

namespace ProviderManual.Schema

open ProviderManual.Source ProviderManual.Text

theorem addImport_eq (imports : ImportMap) (spec : ImportSpec) :
    addImport imports spec =
      match spec.fault? with
      | some e => .error e
      | none => .ok (spec.binding?.elim imports fun b => imports.insert b.1 b.2) := by
  unfold addImport ImportSpec.fault? ImportSpec.binding?
  split
  · rfl
  · cases unquote spec.path <;> rfl

theorem foldlM_addImport (specs : List ImportSpec) (imports : ImportMap) :
    specs.foldlM addImport imports =
      match specs.findSome? ImportSpec.fault? with
      | some e => .error e
      | none =>
          .ok ((specs.filterMap ImportSpec.binding?).foldl (fun t b => t.insert b.1 b.2) imports) := by
  induction specs generalizing imports with
  | nil => rfl
  | cons spec specs ih =>
      rw [List.foldlM_cons, addImport_eq, List.findSome?_cons]
      cases spec.fault? with
      | some e => rfl
      | none =>
          refine (ih _).trans ?_
          cases hb : spec.binding? with
          | none => rw [List.filterMap_cons_none hb]; rfl
          | some b => rw [List.filterMap_cons_some hb]; rfl

theorem addFile_eq (modules : Modules) (index : Index) (f : File) :
    Index.addFile modules index f =
      match f.importError? with
      | some e => .error e
      | none => .ok (f.decls.foldl (Index.add modules) index) := by
  unfold Index.addFile ImportMap.ofSpecs
  rw [foldlM_addImport, File.importError?]
  cases hfault : f.imports.findSome? ImportSpec.fault? with
  | some e => rfl
  | none => rfl

theorem foldlM_addFile (modules : Modules) (files : List File) (index : Index) :
    files.foldlM (Index.addFile modules) index =
      match files.findSome? File.importError? with
      | some e => .error e
      | none => .ok ((files.flatMap File.decls).foldl (Index.add modules) index) := by
  induction files generalizing index with
  | nil => rfl
  | cons f files ih =>
      rw [List.foldlM_cons, addFile_eq, List.findSome?_cons, List.flatMap_cons, List.foldl_append]
      cases f.importError? with
      | some e => rfl
      | none => exact ih _

def Index.declared (index : Index) : DeclClass → String → Option Decl
  | .resource, name => index.resource? name
  | .schema, name => index.schema? name
  | .provider, _ => index.provider
  | .none, _ => none

abbrev Decl.IsNamed (modules : Modules) (c : DeclClass) (name : String) (d : Decl) : Prop :=
  classify d.func d.imports modules = c ∧ (c = .provider ∨ d.func.name = name)

theorem declared_add {c : DeclClass} (hc : c ≠ .none) (modules : Modules) (name : String)
    (index : Index) (d : Decl) :
    (index.add modules d).declared c name =
      if d.IsNamed modules c name then some d else index.declared c name := by
  unfold Index.add Decl.IsNamed
  cases classify d.func d.imports modules <;> cases c <;>
    simp [Index.declared, Index.resource?, Index.schema?, Table.get?_insert] at hc ⊢

theorem declared_foldl_add {c : DeclClass} (hc : c ≠ .none) (modules : Modules) (name : String)
    (ds : List Decl) :
    (ds.foldl (Index.add modules) .empty).declared c name =
      (ds.filter fun d => d.IsNamed modules c name).getLast? := by
  have hempty : Index.empty.declared c name = none := by
    cases c <;> rfl
  have hfold := Table.foldl_observe (fun index : Index => index.declared c name)
    (declared_add hc modules name) ds .empty
  rw [hempty, Option.or_none, Option.map_id'] at hfold
  exact hfold

/-- A file takes part if all do, or if its package is that of the first file by path. -/
def TakesPart (scan : ScanMode) (files : List File) (f : File) : Prop :=
  f ∈ files ∧ (scan = .first →
    ∃ least ∈ files, (∀ g ∈ files, bytesLe least.path g.path = true) ∧ f.package = least.package)

section Participants

variable {files : List File}

theorem bytesLe_head_sortOn {least : File} {rest : List File}
    (h : sortOn File.path files = least :: rest) :
    least ∈ files ∧ ∀ g ∈ files, bytesLe least.path g.path = true := by
  have hmem (g : File) : g ∈ files ↔ g ∈ least :: rest := by
    rw [← h]
    exact (sortOn_perm File.path files).mem_iff.symm
  have hsorted := pairwise_sortOn File.path files
  rw [h] at hsorted
  refine ⟨(hmem least).2 List.mem_cons_self, fun g hg => ?_⟩
  rcases List.mem_cons.1 ((hmem g).1 hg) with rfl | hg
  · simpa using bytesLe_total g.path g.path
  · exact List.rel_of_pairwise_cons hsorted hg

theorem eq_of_least (hpaths : (files.map File.path).Nodup) {f g : File} (hf : f ∈ files)
    (hg : g ∈ files) (hleast : ∀ h ∈ files, bytesLe f.path h.path = true)
    (hleast' : ∀ h ∈ files, bytesLe g.path h.path = true) : f = g :=
  List.inj_on_of_nodup_map hpaths hf hg (bytesLe_antisymm (hleast g hg) (hleast' f hf))

theorem mem_participants_iff (hpaths : (files.map File.path).Nodup) (scan : ScanMode) (f : File) :
    f ∈ Index.participants scan (sortOn File.path files) ↔ TakesPart scan files f := by
  have hmem : f ∈ sortOn File.path files ↔ f ∈ files := (sortOn_perm File.path files).mem_iff
  cases scan with
  | all => simpa [TakesPart, Index.participants] using hmem
  | first =>
      cases hsort : sortOn File.path files with
      | nil =>
          rw [hsort] at hmem
          simpa [TakesPart, Index.participants] using fun hf => absurd (hmem.2 hf) List.not_mem_nil
      | cons least rest =>
          obtain ⟨hleast, hle⟩ := bytesLe_head_sortOn hsort
          rw [hsort] at hmem
          rw [Index.participants, List.mem_filter, hmem, TakesPart, decide_eq_true_eq]
          refine and_congr_right fun _ => ?_
          constructor
          · intro hpackage _
            exact ⟨least, hleast, hle, hpackage⟩
          · intro h
            obtain ⟨other, hother, hle', hpackage⟩ := h rfl
            rw [hpackage, eq_of_least hpaths hother hleast hle' hle]

theorem pairwise_participants (hpaths : (files.map File.path).Nodup) (scan : ScanMode) :
    (Index.participants scan (sortOn File.path files)).Pairwise fun f g => BytesLt f.path g.path := by
  have hsublist : (Index.participants scan (sortOn File.path files)).Sublist
      (sortOn File.path files) := by
    cases scan with
    | all => exact .refl _
    | first =>
        cases sortOn File.path files with
        | nil => exact .refl _
        | cons f fs => exact List.filter_sublist
  exact (pairwise_bytesLt_sortOn hpaths).sublist hsublist

end Participants

/-- Files with distinct paths have one index in whatever order they come: the last declaration of each
class and name, unless one that takes part has an import that cannot be read. -/
theorem index_of_files (modules : Modules) (scan : ScanMode) {files : List File}
    (hpaths : (files.map File.path).Nodup) :
    (∀ files', files'.Perm files →
      Index.build modules scan files' = Index.build modules scan files) ∧
    (∀ (f : File) name, f.importMap.get? name =
      (f.bindings.filter (·.1 = name)).getLast?.map Prod.snd) ∧
    ∃ taking : List File,
      (∀ f, f ∈ taking ↔ TakesPart scan files f) ∧
      (taking.Pairwise fun f g => BytesLt f.path g.path) ∧
      (∀ e, taking.findSome? File.importError? = some e →
        Index.build modules scan files = .error e) ∧
      (taking.findSome? File.importError? = none →
        ∃ index, Index.build modules scan files = .ok index ∧
          (∀ name, index.resource? name = ((taking.flatMap File.decls).filter fun d =>
            classify d.func d.imports modules = .resource ∧ d.func.name = name).getLast?) ∧
          (∀ name, index.schema? name = ((taking.flatMap File.decls).filter fun d =>
            classify d.func d.imports modules = .schema ∧ d.func.name = name).getLast?) ∧
          index.provider = ((taking.flatMap File.decls).filter fun d =>
            classify d.func d.imports modules = .provider).getLast?) := by
  have hbuild : Index.build modules scan files = _ :=
    foldlM_addFile modules (Index.participants scan (sortOn File.path files)) .empty
  refine ⟨fun files' hperm => ?_, fun f name => Table.get?_ofList f.bindings name,
    Index.participants scan (sortOn File.path files), mem_participants_iff hpaths scan,
    pairwise_participants hpaths scan, fun e he => ?_, fun hnone => ?_⟩
  · have hpaths' : (files'.map File.path).Nodup := (hperm.map File.path).nodup_iff.2 hpaths
    rw [Index.build, Index.build, sortOn_eq_of_perm hperm hpaths']
  · rw [hbuild, he]
  · rw [hnone] at hbuild
    refine ⟨_, hbuild, fun name => ?_, fun name => ?_, ?_⟩
    · simpa [Index.declared] using declared_foldl_add (c := .resource) nofun modules name _
    · simpa [Index.declared] using declared_foldl_add (c := .schema) nofun modules name _
    · simpa [Index.declared] using declared_foldl_add (c := .provider) nofun modules "" _

def diskBuilder : Func where
  name := "disk"
  doc := ""
  line := 5
  results := [.star (.selector (.ident "schema") "Schema")]
  body := []

def diskFile : File where
  path := "disk.go"
  package := "acme"
  imports := [⟨none, "\x60schema\x60"⟩]
  funcs := [diskBuilder]

def draftFile : File where
  path := "draft.go"
  package := "draft"
  imports := [⟨none, "schema"⟩]
  funcs := []

theorem takesPart_disk_iff (f : File) :
    TakesPart .first [draftFile, diskFile] f ↔ f = diskFile := by
  have hdisk : ∀ g ∈ [draftFile, diskFile], bytesLe diskFile.path g.path = true := by
    decide +kernel
  have hdraft : bytesLe draftFile.path diskFile.path = false := by decide +kernel
  constructor
  · rintro ⟨hf, hfirst⟩
    obtain ⟨least, hleast, hle, hpackage⟩ := hfirst rfl
    have hne : least ≠ draftFile := by
      rintro rfl
      rw [hle diskFile (by simp)] at hdraft
      cases hdraft
    obtain rfl : least = diskFile := by simpa [hne] using hleast
    have hf' : f ≠ draftFile := by
      rintro rfl
      exact absurd hpackage (by decide)
    simpa [hf'] using hf
  · rintro rfl
    exact ⟨by simp, fun _ => ⟨diskFile, by simp, hdisk, rfl⟩⟩

theorem disk_indexed_beside_draft :
    ([draftFile, diskFile].map File.path).Nodup ∧
    ∃ index, Index.build ⟨"schema", "terraform"⟩ .first [draftFile, diskFile] = .ok index ∧
      Index.build ⟨"schema", "terraform"⟩ .first [diskFile, draftFile] = .ok index ∧
      index.schema? "disk" = some ⟨diskBuilder, diskFile.importMap, "disk.go"⟩ := by
  have hpaths : ([draftFile, diskFile].map File.path).Nodup := by decide
  obtain ⟨hperm, -, taking, hmem, hsorted, -, hok⟩ :=
    index_of_files ⟨"schema", "terraform"⟩ .first hpaths
  have hdisk : ∀ f, f ∈ taking ↔ f = diskFile := fun f => (hmem f).trans (takesPart_disk_iff f)
  have htaking : taking = [diskFile] := by
    have hnodup : taking.Nodup := by
      refine hsorted.imp ?_
      rintro f _ hlt rfl
      exact BytesLt.irrefl f.path hlt
    exact List.perm_singleton.1
      ((List.perm_ext_iff_of_nodup hnodup (List.nodup_singleton _)).2 (by simpa using hdisk))
  rw [htaking] at hok
  obtain ⟨index, hbuild, -, hschema, -⟩ := hok (by decide +kernel)
  refine ⟨hpaths, index, hbuild, ?_, ?_⟩
  · rw [hperm [diskFile, draftFile] (List.Perm.swap _ _ _), hbuild]
  · rw [hschema "disk"]
    rfl

end ProviderManual.Schema
