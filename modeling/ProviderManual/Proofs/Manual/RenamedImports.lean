import ProviderManual.Proofs.Manual.Report
import ProviderManual.Proofs.Schema.Aliases

/-! Runs over packages that differ in the names of imports. -/

namespace ProviderManual.Manual

open ProviderManual.Source ProviderManual.Schema

section Building

variable {w w' : Workshop} {d d' : Decl}

structure Workshop.Alike (w w' : Workshop) : Prop where
  index : IndexAlike w.modules w.index w'.index
  modules : w'.modules = w.modules
  provider : w'.provider = w.provider
  namePrefix : w'.namePrefix = w.namePrefix

theorem toOption_build (w : Workshop) (name : String) (type : ResourceType) (d : Decl) :
    (w.build name type d).toOption =
      (suffixOf? w.namePrefix name).bind fun suffix =>
        ((findSchemaField d.func.roots).toOption.bind id).bind fun l =>
          (resolve w.index w.modules l.elements).toOption.map fun attributes =>
            ⟨w.provider, name, suffix, "", docDescription d.func.doc, type, attributes⟩ := by
  unfold Workshop.build
  cases suffixOf? w.namePrefix name with
  | none => rfl
  | some suffix =>
      dsimp only
      rcases findSchemaField d.func.roots with e | l?
      · rfl
      · cases l? with
        | none => rfl
        | some l =>
            dsimp only
            cases hr : resolve w.index w.modules l.elements <;>
              simp [Except.toOption, hr]

theorem Workshop.Alike.build (hw : w.Alike w') (hd : SameDecl w.modules d d') (name : String)
    (type : ResourceType) : (w'.build name type d').toOption = (w.build name type d).toOption := by
  obtain ⟨old, new, hd⟩ := hd
  have hschema : (findSchemaField d'.func.roots).toOption.bind id =
      ((findSchemaField d.func.roots).toOption.bind id).map (Literal.renameQualifier old new) := by
    rw [hd.func, findSchemaField_renamed d.func.listing_renameQualifier]
    cases (findSchemaField d.func.roots).toOption <;> rfl
  have hdoc : d'.func.doc = d.func.doc := by
    rw [hd.func]
    rfl
  have hresolve (l : Literal) :
      (resolve w'.index w.modules (l.renameQualifier old new).elements).toOption =
        (resolve w.index w.modules l.elements).toOption := by
    rw [resolve, resolve, resolveAt_eq, resolveAt_eq]
    exact (resolves_alike hw.index).1 [] [] l.elements old new
  rw [toOption_build, toOption_build, hw.modules, hw.provider, hw.namePrefix, hdoc, hschema]
  refine Option.bind_congr fun suffix _ => ?_
  rw [Option.bind_map]
  refine Option.bind_congr fun l _ => ?_
  rw [Function.comp_apply, hresolve]

theorem Workshop.Alike.buildTarget (hw : w.Alike w') (t : Target) :
    (w'.buildTarget t).toOption = (w.buildTarget t).toOption := by
  obtain ⟨type, name, constructor⟩ := t
  cases constructor with
  | none => rfl
  | some constructor =>
      have hdeclared := hw.index .resource constructor
      dsimp only [Index.declared] at hdeclared
      unfold Workshop.buildTarget
      dsimp only
      generalize w.index.resource? constructor = o at hdeclared ⊢
      generalize w'.index.resource? constructor = o' at hdeclared ⊢
      cases hdeclared with
      | none => rfl
      | some hd => exact hw.build hd name type

end Building

section Selecting

variable {r r' : Registry}

/-- The two registries hold the same entries, and none where neither can be read. -/
structure RegistryAlike (r r' : Registry) : Prop where
  entries : ∀ type, r'.entries? type = r.entries? type
  errors : ∀ type, (r'.error? type).map (·.type) = (r.error? type).map (·.type)

theorem RegistryAlike.select_eq (h : RegistryAlike r r') (s : Selection) : select r' s = select r s := by
  have htargets : allTargets r' = allTargets r := by
    funext type
    rw [allTargets, allTargets, h.entries]
  have hconstructor : r'.constructor? = r.constructor? := by
    funext type name
    rw [Registry.constructor?, Registry.constructor?, h.entries]
  have hreadable : r'.isReadable = r.isReadable := by
    funext type
    rw [Registry.isReadable, Registry.isReadable, h.entries]
  unfold select namedTargets unknownTargets unknownNames
  simp only [htargets, hconstructor, hreadable]

theorem registryAlike_renameQualifier (provider : Func) (old new : String) :
    RegistryAlike (.extract provider) (.extract (provider.renameQualifier old new)) := by
  have herror (provider : Func) (type : ResourceType) :
      ((Registry.extract provider).error? type).map (·.type) =
        if ((Registry.extract provider).entries? type).isSome then none else some type := by
    rw [Registry.error?, Registry.entries?]
    cases hget : (Registry.extract provider).get type with
    | ok _ => rfl
    | error e => exact congrArg some (Registry.type_of_get_extract hget)
  refine ⟨entries?_extract_renameQualifier provider, fun type => ?_⟩
  rw [herror, herror, entries?_extract_renameQualifier]

end Selecting

section Running

variable {g : Generator} {files files' : List File}

theorem index_alike (g : Generator) (h : List.Forall₂ SameButName files files') :
    (∃ e, g.index files = .error e ∧ g.index files' = .error e) ∨
    ∃ index registry index' registry', g.index files = .ok (index, registry) ∧
      g.index files' = .ok (index', registry') ∧ IndexAlike g.modules index index' ∧
      RegistryAlike registry registry' := by
  unfold Generator.index
  obtain ⟨e, he, he'⟩ | ⟨index, index', hindex, hindex', halike⟩ := build_alike h g.modules g.scan
  · rw [he, he']
    exact .inl ⟨e, rfl, rfl⟩
  · have hprovider := halike .provider ""
    dsimp only [Index.declared] at hprovider
    rw [hindex, hindex']
    dsimp only
    generalize index.provider = p at hprovider ⊢
    generalize index'.provider = p' at hprovider ⊢
    cases hprovider with
    | none => exact .inl ⟨.missingProvider, rfl, rfl⟩
    | some hp =>
        obtain ⟨old, new, hp⟩ := hp
        refine .inr ⟨index, _, index', _, rfl, rfl, halike, ?_⟩
        rw [hp.func]
        exact registryAlike_renameQualifier _ old new

/-- The reports have the same resources, and tell of failures for the same names and registries. -/
structure SameFindings (report report' : Report) : Prop where
  resources : report'.resources = report.resources
  failures : report'.failures.map failureRun = report.failures.map failureRun
  registryFailures : report'.registryFailures.map (·.type) = report.registryFailures.map (·.type)

theorem SameFindings.isSuccess_eq {report report' : Report} (h : SameFindings report report') :
    report'.isSuccess = report.isSuccess := by
  have hfailures := congrArg List.isEmpty h.failures
  have hregistries := congrArg List.isEmpty h.registryFailures
  rw [List.isEmpty_map, List.isEmpty_map] at hfailures hregistries
  rw [Report.isSuccess, Report.isSuccess, hfailures, hregistries]

theorem map_failureRun_failed (w : Workshop) (ts : List Target) :
    (failed (ts.map w.buildTarget)).map failureRun =
      (ts.filter fun t => (w.buildTarget t).toOption.isNone).map Target.run := by
  induction ts with
  | nil => rfl
  | cons t ts ih =>
      have hrun := isOutcomeOf_buildTarget w t
      rw [List.map_cons]
      cases ht : w.buildTarget t with
      | ok r => simpa [ht, Except.toOption] using ih
      | error e =>
          rw [ht] at hrun
          simpa [ht, Except.toOption] using ⟨hrun, ih⟩

theorem collected_alike {index index' : Index} {registry registry' : Registry}
    (hindex : IndexAlike g.modules index index') (hregistry : RegistryAlike registry registry')
    (s : Selection) :
    SameFindings (g.collected s index registry) (g.collected s index' registry') := by
  have hw : (g.workshop index).Alike (g.workshop index') := ⟨hindex, rfl, rfl, rfl⟩
  have hbuilt : (fun t => ((g.workshop index').buildTarget t).toOption) =
      fun t => ((g.workshop index).buildTarget t).toOption := funext hw.buildTarget
  refine ⟨?_, ?_, ?_⟩
  · simp only [Generator.collected, Generator.outcomes, hregistry.select_eq, built,
      List.filterMap_map, Function.comp_def, hbuilt]
  · simp only [Generator.collected, Generator.outcomes, hregistry.select_eq, map_failureRun_failed,
      hw.buildTarget]
  · simp only [Generator.collected, List.map_filterMap, hregistry.errors]

theorem toOption_generate (g : Generator) (files : List File) (s : Selection) :
    (g.generate files s).toOption = (g.index files).toOption.bind fun p =>
      if g.keepGoing = true ∨ (g.collected s p.1 p.2).isSuccess = true then
        some (g.collected s p.1 p.2)
      else none := by
  have hfirst (r : Report) :
      r.orFirstFailure.toOption = if r.isSuccess = true then some r else none := by
    rw [Report.orFirstFailure, Report.isSuccess]
    cases r.registryFailures <;> cases r.failures <;> rfl
  cases hkeep : g.keepGoing with
  | true =>
      rw [Generator.generate_of_keepGoing hkeep]
      cases g.index files <;> simp [Except.map, Except.toOption]
  | false =>
      rw [Generator.generate_of_failFast hkeep]
      cases g.index files with
      | error e => rfl
      | ok p => simpa [Except.bind, Except.toOption] using hfirst _

theorem generate_alike (g : Generator) (h : List.Forall₂ SameButName files files') (s : Selection) :
    Option.Rel SameFindings (g.generate files s).toOption (g.generate files' s).toOption := by
  rw [toOption_generate, toOption_generate]
  obtain ⟨e, he, he'⟩ | ⟨index, registry, index', registry', hindex, hindex', halike, hregistry⟩ :=
    index_alike g h
  · rw [he, he']
    exact .none
  · have hfindings := collected_alike halike hregistry s
    rw [hindex, hindex']
    dsimp only [Except.toOption, Option.bind_some]
    rw [hfindings.isSuccess_eq]
    split
    · exact .some hfindings
    · exact .none

end Running

/-- Whatever names the files import modules under, the same targets are selected and built alike. -/
theorem resources_built_under_renamed_imports (g : Generator) :
    (∀ (f : File) (old new : String), f.Admits new →
      List.Forall₂ (DeclRenamed g.modules old new) f.decls (f.renameImport old new).decls) ∧
    ∀ files files', List.Forall₂ SameButName files files' →
      ((∃ e, g.index files = .error e ∧ g.index files' = .error e) ∨
        ∃ index registry index' registry', g.index files = .ok (index, registry) ∧
          g.index files' = .ok (index', registry') ∧
          (∀ s, select registry' s = select registry s) ∧
          ∀ t r, (g.workshop index).buildTarget t = .ok r ↔ (g.workshop index').buildTarget t = .ok r) ∧
      ∀ s, Option.Rel SameFindings (g.generate files s).toOption (g.generate files' s).toOption := by
  refine ⟨fun f old new h => decls_renameImport old h g.modules, fun files files' h => ⟨?_, generate_alike g h⟩⟩
  obtain ⟨e, he, he'⟩ | ⟨index, registry, index', registry', hindex, hindex', halike, hregistry⟩ :=
    index_alike g h
  · exact .inl ⟨e, he, he'⟩
  · have hw : (g.workshop index).Alike (g.workshop index') := ⟨halike, rfl, rfl, rfl⟩
    refine .inr ⟨index, registry, index', registry', hindex, hindex', hregistry.select_eq, fun t r => ?_⟩
    rw [eq_ok_iff_toOption, eq_ok_iff_toOption, hw.buildTarget]

def sizeBuilder : Func where
  name := "size"
  doc := ""
  line := 3
  results := [.star (.selector (.ident "fields") "Schema")]
  body := [.ret [.unary "&" (.composite (some (.selector (.ident "fields") "Schema")) [])]]

def sizeFile : File where
  path := "size.go"
  package := "acme"
  imports := [⟨some "fields", "\x60schema\x60"⟩]
  funcs := [sizeBuilder]

theorem generate_acmeFile : ∃ report, acmeGenerator.generate [acmeFile] acmeSelection = .ok report ∧
    report.resources = [⟨"acme", "acme_disk", "disk", "", "", .resource, []⟩] := by
  have hnet : (acmeGenerator.workshop acmeIndex).attempt acmeRegistry (.datasource, "acme_net") =
      .error ⟨"acme_net", .datasource, [⟨[], .unknownResource "acme_net"⟩]⟩ := by
    refine attempt_of_not_registers ?_
    rw [Registry.registers_iff]
    decide +kernel
  refine ⟨acmeGenerator.collected acmeSelection acmeIndex acmeRegistry, ?_, ?_⟩
  · rw [Generator.generate_of_keepGoing rfl, index_acmeFile]
    rfl
  · rw [Generator.collected, outcomes_eq_map_attempt _ _ _ (List.cons_ne_nil _ _), runs_acmeSelection,
      List.map_cons, List.map_singleton, attempt_acme_disk, hnet]
    rfl

theorem disk_and_size_under_sdk :
    acmeFile.Admits "sdk" ∧ sizeFile.Admits "sdk" ∧
    (∃ d, (sizeFile.renameImport "fields" "sdk").decls = [d] ∧
      classify d.func d.imports ⟨"schema", "terraform"⟩ = .schema ∧
      builderLiteral ⟨"schema", "terraform"⟩ d = some ⟨some (.selector (.ident "sdk") "Schema"), []⟩) ∧
    ∃ report, acmeGenerator.generate [acmeFile.renameImport "schema" "sdk"] acmeSelection = .ok report ∧
      report.resources = [⟨"acme", "acme_disk", "disk", "", "", .resource, []⟩] := by
  have hacme : acmeFile.Admits "sdk" := ⟨by decide, by decide, by decide +kernel, by decide +kernel⟩
  have hsize : sizeFile.Admits "sdk" := ⟨by decide, by decide, by decide +kernel, by decide +kernel⟩
  obtain ⟨hdecls, hruns⟩ := resources_built_under_renamed_imports acmeGenerator
  refine ⟨hacme, hsize, ?_, ?_⟩
  · cases hdecls sizeFile "fields" "sdk" hsize with
    | cons hd _ =>
        have hclass : classify sizeBuilder sizeFile.importMap ⟨"schema", "terraform"⟩ = .schema := by
          decide +kernel
        exact ⟨_, rfl, hd.classified.trans hclass, hd.literal.trans rfl⟩
  · obtain ⟨report, hreport, hresources⟩ := generate_acmeFile
    obtain ⟨-, hgenerate⟩ := hruns [acmeFile] _ (.cons (.renamed "schema" hacme) .nil)
    have hfindings := hgenerate acmeSelection
    rw [hreport] at hfindings
    generalize hreport' : acmeGenerator.generate [acmeFile.renameImport "schema" "sdk"] acmeSelection = r
      at hfindings
    cases r with
    | error e => cases hfindings
    | ok report' =>
        cases hfindings with
        | some hfindings => exact ⟨report', rfl, hfindings.resources.trans hresources⟩

end ProviderManual.Manual
