import ProviderManual.Proofs.Manual.Kinds

/-! A report tells nothing twice. -/

namespace ProviderManual.Text.Table

variable {α : Type}

theorem nodup_names (t : Table α) : t.names.Nodup :=
  List.pairwise_map.2 (t.ascending.imp fun {x y} hlt (heq : x.1 = y.1) =>
    BytesLt.irrefl y.1 (heq ▸ hlt))

theorem get?_of_mem {t : Table α} {e : String × α} (h : e ∈ t.entries) : t.get? e.1 = some e.2 := by
  cases hfind : t.entries.find? (·.1 = e.1) with
  | none => exact absurd (decide_eq_true rfl) (List.find?_eq_none.1 hfind e h)
  | some e' =>
      have hname : e'.1 = e.1 := by simpa using List.find?_some hfind
      obtain rfl : e' = e :=
        List.inj_on_of_nodup_map t.nodup_names (List.mem_of_find?_eq_some hfind) h hname
      rw [get?, hfind]
      rfl

end ProviderManual.Text.Table

namespace ProviderManual.Manual

open ProviderManual.Source ProviderManual.Schema

def Target.run (t : Target) : Run :=
  (t.type, t.name)

section Targets

variable {r : Registry} {s : Selection} {t : Target}

theorem runs_allTargets (r : Registry) (type : ResourceType) :
    (allTargets r type).map Target.run =
      (((r.entries? type).map Text.Table.names).getD []).map fun name => (type, name) := by
  unfold allTargets
  cases r.entries? type with
  | none => rfl
  | some entries =>
      dsimp only [Option.map_some, Option.getD_some, Text.Table.names]
      rw [List.map_map, List.map_map]
      rfl

theorem targetOf_run_of_mem_allTargets {type : ResourceType} (h : t ∈ allTargets r type) :
    targetOf r t.run = t := by
  unfold allTargets at h
  split at h
  · next entries hentries =>
      obtain ⟨e, he, rfl⟩ := List.mem_map.1 h
      have hconstructor : r.constructor? type e.1 = some e.2 := by
        rw [Registry.constructor?, hentries]
        exact Text.Table.get?_of_mem he
      rw [targetOf, Target.run]
      exact congrArg (Target.mk type e.1) hconstructor
  · cases h

theorem targetOf_run_of_mem_select (h : t ∈ select r s) : targetOf r t.run = t := by
  by_cases hnames : s.names = []
  · obtain ⟨names, kind⟩ := s
    subst hnames
    obtain ⟨type, -, ht⟩ := List.mem_flatMap.1 h
    exact targetOf_run_of_mem_allTargets ht
  · rw [select_eq_map_runs hnames] at h
    obtain ⟨run, -, rfl⟩ := List.mem_map.1 h
    rfl

theorem nodup_runs_select (r : Registry) (s : Selection) : ((select r s).map Target.run).Nodup := by
  by_cases hnames : s.names = []
  · obtain ⟨names, kind⟩ := s
    subst hnames
    have hselect : (select r ⟨[], kind⟩).map Target.run = kind.types.flatMap fun type =>
        (((r.entries? type).map Text.Table.names).getD []).map fun name => (type, name) := by
      rw [← funext (runs_allTargets r), ← List.map_flatMap]
      rfl
    rw [hselect]
    refine List.nodup_flatMap.2 ⟨fun type _ => ?_, kind.nodup_types.imp fun {type type'} hne => ?_⟩
    · refine List.Nodup.map (fun _ _ h => congrArg Prod.snd h) ?_
      cases r.entries? type with
      | none => exact List.nodup_nil
      | some entries => exact entries.nodup_names
    · intro run hrun hrun'
      obtain ⟨name, -, rfl⟩ := List.mem_map.1 hrun
      obtain ⟨name', -, h⟩ := List.mem_map.1 hrun'
      exact hne (congrArg Prod.fst h).symm
  · rw [select_eq_map_runs hnames, List.map_map]
    have hid : Target.run ∘ targetOf r = id := rfl
    rw [hid, List.map_id]
    exact s.nodup_runs r

end Targets

namespace Generator

variable {g : Generator} {files : List File} {s : Selection} {report : Report}

theorem outcomes_eq_map_runs (g : Generator) (index : Index) (registry : Registry) (s : Selection) :
    g.outcomes index registry s =
      ((select registry s).map Target.run).map ((g.workshop index).attempt registry) := by
  rw [outcomes, List.map_map]
  refine List.map_congr_left fun t ht => ?_
  exact congrArg (g.workshop index).buildTarget (targetOf_run_of_mem_select ht).symm

theorem runs_collected_perm_select (g : Generator) (index : Index) (registry : Registry)
    (s : Selection) :
    (g.collected s index registry).runs.Perm ((select registry s).map Target.run) := by
  rw [Report.runs, collected, outcomes_eq_map_runs]
  exact perm_of_outcomes _ fun run _ => isOutcomeOf_attempt _ registry run

theorem report_eq_collected (h : g.generate files s = .ok report) :
    ∃ index registry, g.index files = .ok (index, registry) ∧
      report = g.collected s index registry := by
  cases hkeep : g.keepGoing with
  | true => exact exists_index_of_generate hkeep h
  | false =>
      rw [generate_of_failFast hkeep] at h
      cases hindex : g.index files with
      | error e =>
          rw [hindex] at h
          cases h
      | ok p =>
          rw [hindex] at h
          exact ⟨p.1, p.2, rfl, (Report.orFirstFailure_eq_ok_iff.1 h).1⟩

theorem nodup_runs_of_generate (h : g.generate files s = .ok report) : report.runs.Nodup := by
  obtain ⟨index, registry, -, rfl⟩ := report_eq_collected h
  exact (g.runs_collected_perm_select index registry s).nodup_iff.2 (nodup_runs_select registry s)

end Generator

theorem suffixOf?_eq_some_iff {namePrefix name suffix : String} :
    suffixOf? namePrefix name = some suffix ↔ name = namePrefix ++ suffix := by
  have hname : name = namePrefix ++ suffix ↔ name.toList = namePrefix.toList ++ suffix.toList := by
    rw [← String.toList_inj, String.toList_append]
  rw [hname, suffixOf?]
  split
  · next hprefix =>
      obtain ⟨rest, hrest⟩ := List.isPrefixOf_iff_prefix.1 hprefix
      rw [← hrest, List.drop_left, Option.some.injEq, ← String.toList_inj, String.toList_ofList,
        List.append_cancel_left_eq]
  · next hprefix =>
      refine iff_of_false (fun h => nomatch h) fun h => hprefix ?_
      exact List.isPrefixOf_iff_prefix.2 ⟨suffix.toList, h.symm⟩

theorem name_of_build {w : Workshop} {name : String} {type : ResourceType} {d : Decl} {r : Resource}
    (h : w.build name type d = .ok r) : r.name = w.namePrefix ++ r.nameSuffix := by
  unfold Workshop.build at h
  cases hsuffix : suffixOf? w.namePrefix name with
  | none =>
      rw [hsuffix] at h
      cases h
  | some suffix =>
      rw [hsuffix] at h
      dsimp only at h
      split at h
      · cases h
      · cases h
      · split at h
        · cases h
        · cases h
          exact suffixOf?_eq_some_iff.1 hsuffix

theorem name_of_mem_resources {g : Generator} {files : List File} {s : Selection} {report : Report}
    (h : g.generate files s = .ok report) {r : Resource} (hr : r ∈ report.resources) :
    r.name = g.namePrefix ++ r.nameSuffix := by
  obtain ⟨index, registry, -, rfl⟩ := Generator.report_eq_collected h
  obtain ⟨t, -, ht⟩ := List.mem_map.1 (mem_built_iff.1 hr)
  unfold Workshop.buildTarget at ht
  split at ht
  · cases ht
  · split at ht
    · cases ht
    · exact name_of_build ht

end ProviderManual.Manual
