import ProviderManual.Manual.Generate

/-! A run that fails fast beside the same run kept going. -/

namespace ProviderManual.Manual

open ProviderManual.Source ProviderManual.Schema

def failure? : Except ResourceError Resource → Option ResourceError
  | .ok _ => none
  | .error e => some e

def built (outcomes : List (Except ResourceError Resource)) : List Resource :=
  outcomes.filterMap Except.toOption

def failed (outcomes : List (Except ResourceError Resource)) : List ResourceError :=
  outcomes.filterMap failure?

section Outcomes

variable (outcomes : List (Except ResourceError Resource))

@[simp] theorem built_nil : built [] = [] := rfl

@[simp] theorem built_ok_cons (r : Resource) : built (.ok r :: outcomes) = r :: built outcomes := rfl

@[simp] theorem built_error_cons (e : ResourceError) :
    built (.error e :: outcomes) = built outcomes := rfl

@[simp] theorem failed_nil : failed [] = [] := rfl

@[simp] theorem failed_ok_cons (r : Resource) : failed (.ok r :: outcomes) = failed outcomes := rfl

@[simp] theorem failed_error_cons (e : ResourceError) :
    failed (.error e :: outcomes) = e :: failed outcomes := rfl

end Outcomes

namespace Report

/-- A report without failures, or the failure that is met first: registries are looked at before
anything is built. -/
def orFirstFailure (r : Report) : Except RunError Report :=
  match r.registryFailures, r.failures with
  | e :: _, _ => .error (.registry e)
  | [], e :: _ => .error (.resource e)
  | [], [] => .ok r

variable {r r' : Report}

theorem orFirstFailure_of_registryFailures {e : RegistryError} {es : List RegistryError}
    (h : r.registryFailures = e :: es) : r.orFirstFailure = .error (.registry e) := by
  rw [orFirstFailure, h]

theorem orFirstFailure_of_failures {e : ResourceError} {es : List ResourceError}
    (hregistries : r.registryFailures = []) (h : r.failures = e :: es) :
    r.orFirstFailure = .error (.resource e) := by
  rw [orFirstFailure, hregistries, h]

theorem isSuccess_iff : r.isSuccess = true ↔ r.failures = [] ∧ r.registryFailures = [] := by
  rw [isSuccess, Bool.and_eq_true, List.isEmpty_iff, List.isEmpty_iff]

theorem orFirstFailure_eq_ok_iff : r.orFirstFailure = .ok r' ↔ r' = r ∧ r.isSuccess = true := by
  rw [isSuccess_iff, orFirstFailure]
  cases r.registryFailures <;> cases r.failures <;> simp [eq_comm]

end Report

namespace Generator

variable {g : Generator}

theorem foldlM_record_of_keepGoing (hg : g.keepGoing = true)
    (outcomes : List (Except ResourceError Resource)) (report : Report) :
    outcomes.foldlM g.record report = .ok
      { report with
        resources := report.resources ++ built outcomes
        failures := report.failures ++ failed outcomes } := by
  induction outcomes generalizing report with
  | nil => simp [pure, Except.pure]
  | cons outcome outcomes ih =>
      rw [List.foldlM_cons]
      cases outcome with
      | ok r =>
          have hstep : g.record report (.ok r) =
              .ok { report with resources := report.resources ++ [r] } := rfl
          simp [hstep, bind, Except.bind, ih]
      | error e =>
          have hstep : g.record report (.error e) =
              .ok { report with failures := report.failures ++ [e] } := by
            rw [record, if_pos hg]
          simp [hstep, bind, Except.bind, ih]

theorem foldlM_record_of_failFast (hg : g.keepGoing = false)
    (outcomes : List (Except ResourceError Resource)) (report : Report) :
    outcomes.foldlM g.record report =
      match failed outcomes with
      | [] => .ok { report with resources := report.resources ++ built outcomes }
      | e :: _ => .error (.resource e) := by
  induction outcomes generalizing report with
  | nil => simp [pure, Except.pure]
  | cons outcome outcomes ih =>
      rw [List.foldlM_cons]
      cases outcome with
      | ok r =>
          have hstep : g.record report (.ok r) =
              .ok { report with resources := report.resources ++ [r] } := rfl
          simp [hstep, bind, Except.bind, ih]
      | error e =>
          have hstep : g.record report (.error e) = .error (.resource e) := by
            rw [record, if_neg (by simp [hg])]
          simp [hstep, bind, Except.bind]

theorem runInTurn_eq_runAtOnce (g : Generator) : g.runInTurn = g.runAtOnce := by
  funext w report targets
  rw [runInTurn, runAtOnce, List.foldlM_map]

def outcomes (g : Generator) (index : Index) (registry : Registry) (s : Selection) :
    List (Except ResourceError Resource) :=
  (select registry s).map (g.workshop index).buildTarget

def collected (g : Generator) (s : Selection) (index : Index) (registry : Registry) : Report where
  resources := built (g.outcomes index registry s)
  failures := failed (g.outcomes index registry s)
  registryFailures := s.kind.types.filterMap registry.error?

theorem generate_eq_foldlM (g : Generator) (files : List File) (s : Selection) :
    g.generate files s =
      match g.index files with
      | .error e => .error e
      | .ok (index, registry) =>
          match g.checkRegistries registry s.kind.types with
          | .error e => .error e
          | .ok report => (g.outcomes index registry s).foldlM g.record report := by
  rw [generate, runInTurn_eq_runAtOnce, ite_self]
  rfl

theorem generate_of_keepGoing (hg : g.keepGoing = true) (files : List File) (s : Selection) :
    g.generate files s =
      (g.index files).map fun p => g.collected s p.1 p.2 := by
  rw [generate_eq_foldlM]
  rcases g.index files with e | ⟨index, registry⟩
  · rfl
  · have hcheck : g.checkRegistries registry s.kind.types =
        .ok ⟨[], [], s.kind.types.filterMap registry.error?⟩ := by
      rw [checkRegistries, hg]
      cases s.kind.types.filterMap registry.error? <;> rfl
    dsimp only
    rw [hcheck]
    dsimp only
    rw [foldlM_record_of_keepGoing hg]
    rfl

theorem exists_index_of_generate (hg : g.keepGoing = true) {files : List File} {s : Selection}
    {report : Report} (h : g.generate files s = .ok report) :
    ∃ index registry, g.index files = .ok (index, registry) ∧
      report = g.collected s index registry := by
  rw [generate_of_keepGoing hg] at h
  rcases hindex : g.index files with e | ⟨index, registry⟩
  · rw [hindex] at h
    cases h
  · rw [hindex] at h
    cases h
    exact ⟨index, registry, rfl, rfl⟩

theorem generate_of_failFast (hg : g.keepGoing = false) (files : List File) (s : Selection) :
    g.generate files s =
      (g.index files).bind fun p => (g.collected s p.1 p.2).orFirstFailure := by
  rw [generate_eq_foldlM]
  rcases g.index files with e | ⟨index, registry⟩
  · rfl
  · dsimp only [Except.bind, collected, Report.orFirstFailure]
    rw [checkRegistries, hg]
    cases s.kind.types.filterMap registry.error? with
    | cons e es => rfl
    | nil =>
        dsimp only
        rw [foldlM_record_of_failFast hg]
        cases failed (g.outcomes index registry s) with
        | nil => rfl
        | cons e es => rfl

theorem generate_failFast (g : Generator) (files : List File) (s : Selection) :
    generate { g with keepGoing := false } files s =
      (generate { g with keepGoing := true } files s).bind Report.orFirstFailure := by
  have hkeep : generate { g with keepGoing := true } files s =
      (g.index files).map fun p => g.collected s p.1 p.2 := generate_of_keepGoing rfl files s
  have hfast : generate { g with keepGoing := false } files s =
      (g.index files).bind fun p => (g.collected s p.1 p.2).orFirstFailure :=
    generate_of_failFast rfl files s
  rw [hkeep, hfast]
  cases g.index files <;> rfl

theorem exists_of_foldlM_error {α β ε : Type} {f : β → α → Except ε β} {xs : List α} {b : β} {e : ε}
    (h : xs.foldlM f b = .error e) : ∃ b', ∃ x ∈ xs, f b' x = .error e := by
  induction xs generalizing b with
  | nil => cases h
  | cons x xs ih =>
      rw [List.foldlM_cons] at h
      cases hx : f b x with
      | error e' =>
          rw [hx] at h
          cases h
          exact ⟨b, x, List.mem_cons_self, hx⟩
      | ok b' =>
          rw [hx] at h
          obtain ⟨b'', y, hy, he⟩ := ih h
          exact ⟨b'', y, List.mem_cons_of_mem x hy, he⟩

theorem error_of_build {modules : Modules} {scan : ScanMode} {files : List File} {e : RunError}
    (h : Index.build modules scan files = .error e) :
    ∃ file fault, e = .invalidImport file fault := by
  obtain ⟨index, f, -, hf⟩ := exists_of_foldlM_error h
  unfold Index.addFile at hf
  split at hf
  · next fault _ =>
      cases hf
      exact ⟨f.path, fault, rfl⟩
  · cases hf

theorem error_of_index {files : List File} {e : RunError} (h : g.index files = .error e) :
    e = .missingProvider ∨ ∃ file fault, e = .invalidImport file fault := by
  unfold index at h
  split at h
  · next hbuild =>
      cases h
      exact .inr (error_of_build hbuild)
  · split at h
    · cases h
      exact .inl rfl
    · cases h

theorem error_of_generate (hg : g.keepGoing = true) {files : List File} {s : Selection} {e : RunError}
    (h : g.generate files s = .error e) :
    e = .missingProvider ∨ ∃ file fault, e = .invalidImport file fault := by
  rw [generate_of_keepGoing hg] at h
  cases hindex : g.index files with
  | error e' =>
      rw [hindex] at h
      cases h
      exact error_of_index hindex
  | ok p =>
      rw [hindex] at h
      cases h

end Generator

/-- A run that fails fast ends at the first failure of the same run kept going, and gives its report if
there is none. -/
theorem failFast_determined_by_keepGoing (g : Generator) (files : List File) (s : Selection) :
    (∀ e, Generator.generate { g with keepGoing := true } files s = .error e →
      Generator.generate { g with keepGoing := false } files s = .error e ∧
      (e = .missingProvider ∨ ∃ file fault, e = .invalidImport file fault)) ∧
    (∀ r, Generator.generate { g with keepGoing := true } files s = .ok r →
      (r.registryFailures = [] → r.failures = [] →
        Generator.generate { g with keepGoing := false } files s = .ok r) ∧
      (∀ e es, r.registryFailures = e :: es →
        Generator.generate { g with keepGoing := false } files s = .error (.registry e)) ∧
      ∀ e es, r.registryFailures = [] → r.failures = e :: es →
        Generator.generate { g with keepGoing := false } files s = .error (.resource e)) ∧
    (∀ r, Generator.generate { g with keepGoing := false } files s = .ok r →
      Generator.generate { g with keepGoing := true } files s = .ok r ∧ r.isSuccess = true) ∧
    ∀ keepGoing parallel,
      Generator.generate { g with keepGoing := keepGoing, parallel := parallel } files s =
        Generator.generate { g with keepGoing := keepGoing } files s := by
  rw [Generator.generate_failFast]
  refine ⟨fun e he => ?_, fun r hr => ?_, fun r hr => ?_, fun keepGoing parallel => ?_⟩
  · rw [he]
    exact ⟨rfl, Generator.error_of_generate rfl he⟩
  · rw [hr]
    exact ⟨fun hregistries hfailures => Report.orFirstFailure_eq_ok_iff.2
        ⟨rfl, Report.isSuccess_iff.2 ⟨hfailures, hregistries⟩⟩,
      fun e es hregistries => Report.orFirstFailure_of_registryFailures hregistries,
      fun e es hregistries hfailures => Report.orFirstFailure_of_failures hregistries hfailures⟩
  · cases hkeep : Generator.generate { g with keepGoing := true } files s with
    | error e =>
        rw [hkeep] at hr
        cases hr
    | ok kept =>
        rw [hkeep] at hr
        obtain ⟨rfl, hsuccess⟩ := Report.orFirstFailure_eq_ok_iff.1 hr
        exact ⟨rfl, hsuccess⟩
  · rw [Generator.generate_eq_foldlM, Generator.generate_eq_foldlM]
    rfl

end ProviderManual.Manual
