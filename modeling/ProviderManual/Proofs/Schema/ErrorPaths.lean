import ProviderManual.Proofs.Manual.Report
import ProviderManual.Proofs.Schema.Expansion

/-! Where the errors of a resolution are located. -/

namespace ProviderManual.Schema

open ProviderManual.Source ProviderManual.Manual

variable {α β : Type}

def ResolveError.under (path : Path) (e : ResolveError) : ResolveError :=
  ⟨path ++ e.path, e.fault⟩

def Outcome.under (path : Path) (o : Outcome α) : Outcome α :=
  o.mapError (List.map (·.under path))

section Under

variable (p : Path)

theorem under_map (f : α → β) (o : Outcome α) :
    Outcome.under p (o.map f) = (Outcome.under p o).map f := by
  cases o <;> rfl

theorem errorsOf_under (o : Outcome α) :
    errorsOf (o.under p) = (errorsOf o).map (·.under p) := by
  cases o <;> rfl

theorem gather_map_under (os : List (Outcome α)) :
    gather (os.map (·.under p)) = Outcome.under p (gather os) := by
  induction os with
  | nil => rfl
  | cons o os ih =>
      rw [List.map_cons]
      cases o with
      | ok a =>
          have hhead : Outcome.under p (.ok a : Outcome α) = .ok a := rfl
          rw [hhead, gather_ok_cons, gather_ok_cons, ih, under_map]
      | error es =>
          have hhead : Outcome.under p (.error es : Outcome α) = .error (es.map (·.under p)) := rfl
          rw [hhead, gather_error_cons, gather_error_cons, ih, errorsOf_under, ← List.map_append]
          rfl

theorem assemble_under (path : Path) (name : String) (fields : List Expr)
    (nested : Outcome (List Attribute)) :
    assemble (p ++ path) name fields (nested.under p) =
      (assemble path name fields nested).under p := by
  have hfaults : (Scalars.ofElements fields).faults.map (ResolveError.mk (p ++ path)) =
      ((Scalars.ofElements fields).faults.map (ResolveError.mk path)).map (·.under p) := by
    rw [List.map_map]
    rfl
  cases nested with
  | error es =>
      have hnested : Outcome.under p (.error es : Outcome (List Attribute)) =
          .error (es.map (·.under p)) := rfl
      simp only [hnested, assemble, hfaults, ← List.map_append]
      rfl
  | ok children =>
      have hnested : Outcome.under p (.ok children : Outcome (List Attribute)) = .ok children := rfl
      simp only [hnested, assemble, hfaults, List.isEmpty_map]
      split <;> rfl

variable (index : Index) (modules : Modules)

theorem resolution_under :
    (∀ s path elements, resolveAttributes index modules s (p ++ path) elements =
      (resolveAttributes index modules s path elements).under p) ∧
    (∀ s path x, resolveElement index modules s (p ++ path) x =
      (resolveElement index modules s path x).under p) ∧
    (∀ s path name b, resolveBuilder index modules s (p ++ path) name b =
      (resolveBuilder index modules s path name b).under p) ∧
    (∀ s path name fields, buildAttribute index modules s (p ++ path) name fields =
      (buildAttribute index modules s path name fields).under p) := by
  refine resolution_induct index modules ?_ ?_ ?_ ?_
  · intro s path elements ih
    have helements : elements.map (resolveElement index modules s (p ++ path)) =
        (elements.map (resolveElement index modules s path)).map (·.under p) := by
      rw [List.map_map]
      exact List.map_congr_left ih
    rw [resolveAttributes_eq, resolveAttributes_eq, helements, gather_map_under, under_map]
  · intro s path x hinline hbuilder
    rw [resolveElement_eq, resolveElement_eq]
    rcases hp : elementParts x with e | ⟨name, value⟩
    · rfl
    · dsimp only
      rw [List.append_assoc]
      rcases hs : fieldSource value with e | source
      · rfl
      · cases source with
        | inline fields => exact hinline name value fields hp hs
        | builder b => exact hbuilder name value b hp hs
  · intro s path name b ih
    rw [resolveBuilder_eq, resolveBuilder_eq]
    cases hd : index.schema? b with
    | none => rfl
    | some d =>
        dsimp only
        split
        · rfl
        · next hb =>
            cases hl : builderLiteral modules d with
            | none => rfl
            | some l => exact ih d l hd hb hl
  · intro s path name fields ih
    rw [buildAttribute_eq, buildAttribute_eq, ← assemble_under]
    rcases hn : nestedSchema fields with e | l
    · rfl
    · cases l with
      | none => rfl
      | some l =>
          dsimp only
          rw [ih l hn]

end Under

def keyFault? : Expr → Option Fault
  | .keyValue (.basicLit .string raw) _ =>
      match unquote raw with
      | .ok _ => none
      | .error e => some (.invalidLiteral e)
  | .keyValue key _ => some (.shape .stringKey key)
  | other => some (.shape .keyValuePair other)

theorem keyFault?_eq (x : Expr) :
    keyFault? x = match elementParts x with
      | .ok _ => none
      | .error e => some e := by
  fun_cases elementParts x with
  | case1 raw value =>
      rw [keyFault?]
      cases unquote raw <;> rfl
  | case2 key value hkey =>
      rw [keyFault?]
      exact hkey
  | case3 =>
      rw [keyFault?] <;> assumption

/-- Keys that lead down from the elements of a schema literal: the key of one of them, and on from the
literal that is nested in the field schema of this one. -/
inductive Leads (index : Index) (modules : Modules) : List Expr → Path → Prop
  | key {elements raw name value} :
      .keyValue (.basicLit .string raw) value ∈ elements → unquote raw = .ok name →
      Leads index modules elements [name]
  | nested {elements x name fields l names} :
      x ∈ elements → FieldSchemaOf index modules x name fields →
      nestedSchema fields = .ok (some l) → Leads index modules l.elements names →
      Leads index modules elements (name :: names)

section Located

variable {index : Index} {modules : Modules} {path : Path} {e : ResolveError}

variable (index modules) in
def LocatedBelow (path : Path) (elements : List Expr) (e : ResolveError) : Prop :=
  ∃ names, Leads index modules elements names ∧ e.path = path ++ names

variable (index modules) in
def LocatedInField (path : Path) (fields : List Expr) (e : ResolveError) : Prop :=
  e.path = path ∨
    ∃ l, nestedSchema fields = .ok (some l) ∧ LocatedBelow index modules path l.elements e

theorem Leads.mono {xs ys : List Expr} {names : Path} (hsub : xs ⊆ ys)
    (h : Leads index modules xs names) : Leads index modules ys names := by
  cases h with
  | key hx hu => exact .key (hsub hx) hu
  | nested hx hf hn hl => exact .nested (hsub hx) hf hn hl

theorem Leads.ne_nil {elements : List Expr} {names : Path}
    (h : Leads index modules elements names) : names ≠ [] := by
  cases h <;> exact List.cons_ne_nil _ _

theorem LocatedBelow.path_ne {elements : List Expr} (h : LocatedBelow index modules path elements e) :
    e.path ≠ path := by
  obtain ⟨names, hnames, hpath⟩ := h
  rw [hpath]
  exact fun heq => hnames.ne_nil (List.append_right_eq_self.1 heq)

theorem locatedBelow_of_elementParts {x value : Expr} {name : String}
    (hp : elementParts x = .ok (name, value)) (he : e.path = path ++ [name]) :
    LocatedBelow index modules path [x] e := by
  obtain ⟨raw, rfl, hu⟩ := elementParts_eq_ok_iff.1 hp
  exact ⟨[name], .key List.mem_cons_self hu, he⟩

theorem FieldSchemaOf.locatedBelow {x value : Expr} {name : String} {fields : List Expr}
    (hx : FieldSchemaOf index modules x name fields) (hp : elementParts x = .ok (name, value))
    (he : LocatedInField index modules (path ++ [name]) fields e) :
    LocatedBelow index modules path [x] e := by
  rcases he with he | ⟨l, hn, names, hnames, he⟩
  · exact locatedBelow_of_elementParts hp he
  · refine ⟨name :: names, .nested List.mem_cons_self hx hn hnames, ?_⟩
    rw [he, List.append_assoc]
    rfl

end Located

section Calls

variable (index : Index) (modules : Modules)

def ElementErrorsLocated (path : Path) (x : Expr) (es : List ResolveError) : Prop :=
  match keyFault? x with
  | some f => es = [⟨path, f⟩]
  | none => ∀ e ∈ es, LocatedBelow index modules path [x] e

theorem resolution_located :
    (∀ s path elements, ∀ e ∈ errorsOf (resolveAttributes index modules s path elements),
      e.path = path ∨ LocatedBelow index modules path elements e) ∧
    (∀ s path x, ElementErrorsLocated index modules path x
      (errorsOf (resolveElement index modules s path x))) ∧
    (∀ s path name b, ∀ e ∈ errorsOf (resolveBuilder index modules s path name b),
      e.path = path ∨ ∃ d l, index.schema? b = some d ∧ builderLiteral modules d = some l ∧
        LocatedInField index modules path l.elements e) ∧
    (∀ s path name fields, ∀ e ∈ errorsOf (buildAttribute index modules s path name fields),
      LocatedInField index modules path fields e) := by
  refine resolution_induct index modules ?_ ?_ ?_ ?_
  · intro s path elements ih e he
    rw [errorsOf_attributes] at he
    obtain ⟨x, hx, he⟩ := List.mem_flatMap.1 he
    have hlocated := ih x hx
    unfold ElementErrorsLocated at hlocated
    split at hlocated
    · rw [hlocated, List.mem_singleton] at he
      exact .inl (congrArg ResolveError.path he)
    · obtain ⟨names, hnames, hpath⟩ := hlocated e he
      exact .inr ⟨names, hnames.mono (by simpa using hx), hpath⟩
  · intro s path x hinline hbuilder
    rw [ElementErrorsLocated, keyFault?_eq, resolveElement_eq]
    rcases hp : elementParts x with f | ⟨name, value⟩
    · rfl
    · obtain ⟨raw, hx, hu⟩ := elementParts_eq_ok_iff.1 hp
      dsimp only
      rcases hs : fieldSource value with f | source
      · intro e he
        obtain rfl := List.mem_singleton.1 he
        exact locatedBelow_of_elementParts hp rfl
      · cases source with
        | inline fields =>
            intro e he
            obtain ⟨type, rfl⟩ := fieldSource_eq_inline_iff.1 hs
            have hfield : FieldSchemaOf index modules x name fields := hx ▸ .inline hu
            exact hfield.locatedBelow hp (hinline name _ fields hp hs e he)
        | builder b =>
            intro e he
            obtain ⟨args, rfl⟩ := fieldSource_eq_builder_iff.1 hs
            rcases hbuilder name _ b hp hs e he with he | ⟨d, l, hd, hl, he⟩
            · exact locatedBelow_of_elementParts hp he
            · have hfield : FieldSchemaOf index modules x name l.elements :=
                hx ▸ .builder hu hd (builderLiteral_eq_some_iff.1 hl)
              exact hfield.locatedBelow hp he
  · intro s path name b ih e he
    rw [resolveBuilder_eq] at he
    cases hd : index.schema? b with
    | none =>
        rw [hd] at he
        obtain rfl := List.mem_singleton.1 he
        exact .inl rfl
    | some d =>
        rw [hd] at he
        dsimp only at he
        split at he
        · obtain rfl := List.mem_singleton.1 he
          exact .inl rfl
        · next hb =>
            cases hl : builderLiteral modules d with
            | none =>
                rw [hl] at he
                obtain rfl := List.mem_singleton.1 he
                exact .inl rfl
            | some l =>
                rw [hl] at he
                exact .inr ⟨d, l, rfl, hl, ih d l hd hb hl e he⟩
  · intro s path name fields ih e he
    rw [buildAttribute_eq, errorsOf_assemble] at he
    rcases List.mem_append.1 he with he | he
    · obtain ⟨f, -, rfl⟩ := List.mem_map.1 he
      exact .inl rfl
    · rcases hn : nestedSchema fields with f | l
      · rw [hn] at he
        obtain rfl := List.mem_singleton.1 he
        exact .inl rfl
      · cases l with
        | none =>
            rw [hn] at he
            cases he
        | some l =>
            rw [hn] at he
            exact (ih l hn e he).imp id fun h => ⟨l, hn, h⟩

theorem errors_at_path (s : List String) (path : Path) (elements : List Expr) :
    (errorsOf (resolveAttributes index modules s path elements)).filter (·.path = path) =
      (elements.filterMap keyFault?).map (ResolveError.mk path) := by
  rw [errorsOf_attributes]
  induction elements with
  | nil => rfl
  | cons x xs ih =>
      have hx := (resolution_located index modules).2.1 s path x
      rw [List.flatMap_cons, List.filter_append, ih]
      unfold ElementErrorsLocated at hx
      split at hx
      · next f hf => simp [hx, hf]
      · next hf =>
          have hbelow : (errorsOf (resolveElement index modules s path x)).filter (·.path = path) = [] :=
            List.filter_eq_nil_iff.2 fun e he => by simpa using (hx e he).path_ne
          rw [hbelow, List.nil_append, List.filterMap_cons_none hf]

end Calls

theorem isReading_of_keyFault? {x : Expr} {f : Fault} (h : keyFault? x = some f) : f.IsReading := by
  rw [keyFault?_eq] at h
  split at h
  · cases h
  · next e hp =>
      obtain rfl := Option.some.inj h
      exact FailsReading.elementParts x e hp

def HasErrors (o : Outcome α) : Prop :=
  ∀ es, o = .error es → es ≠ []

namespace HasErrors

theorem ok (a : α) : HasErrors (.ok a) := by
  intro es h
  cases h

theorem single (e : ResolveError) : HasErrors (.error [e] : Outcome α) := by
  intro es h
  cases h
  exact List.cons_ne_nil e []

theorem assemble {nested : Outcome (List Attribute)} (h : HasErrors nested) (path : Path)
    (name : String) (fields : List Expr) :
    HasErrors (Schema.assemble path name fields nested) := by
  intro es hes
  cases nested with
  | error nestedErrors =>
      cases hes
      exact List.append_ne_nil_of_right_ne_nil _ (h nestedErrors rfl)
  | ok children =>
      simp only [Schema.assemble] at hes
      split at hes
      · cases hes
      · next hfaults =>
          cases hes
          exact fun hnil => hfaults (List.isEmpty_iff.2 hnil)

theorem map {o : Outcome α} (h : HasErrors o) (f : α → β) : HasErrors (o.map f) := by
  intro es hes
  cases o with
  | ok a => cases hes
  | error fs =>
      cases hes
      exact h _ rfl

theorem gather {os : List (Outcome α)} (h : ∀ o ∈ os, HasErrors o) : HasErrors (Schema.gather os) := by
  induction os with
  | nil => exact ok []
  | cons o os ih =>
      obtain ⟨ho, hos⟩ := List.forall_mem_cons.1 h
      cases o with
      | ok a =>
          rw [gather_ok_cons]
          exact (ih hos).map _
      | error es =>
          rw [gather_error_cons]
          intro fs hfs
          cases hfs
          exact List.append_ne_nil_of_left_ne_nil (ho es rfl) _

theorem resolution (index : Index) (modules : Modules) :
    (∀ s path elements, HasErrors (resolveAttributes index modules s path elements)) ∧
    (∀ s path x, HasErrors (resolveElement index modules s path x)) ∧
    (∀ s path name b, HasErrors (resolveBuilder index modules s path name b)) ∧
    (∀ s path name fields, HasErrors (buildAttribute index modules s path name fields)) :=
  resolution_of_single index modules (P := fun _ => HasErrors) (ok []) (fun _ _ _ _ => single _)
    (fun _ h => (gather h).map _) (fun _ h => h.assemble)

end HasErrors

end ProviderManual.Schema

namespace ProviderManual.Manual

open ProviderManual.Source ProviderManual.Schema

theorem errors_ne_nil_of_build {w : Workshop} {name : String} {type : ResourceType} {d : Decl}
    {e : ResourceError} (h : w.build name type d = .error e) : e.errors ≠ [] := by
  unfold Workshop.build at h
  cases hs : suffixOf? w.namePrefix name with
  | none =>
      simp only [hs] at h
      cases h
      exact List.cons_ne_nil _ _
  | some suffix =>
      simp only [hs] at h
      split at h
      · cases h
        exact List.cons_ne_nil _ _
      · cases h
        exact List.cons_ne_nil _ _
      · next l _ =>
          split at h
          · next es hes =>
              cases h
              rw [resolve, resolveAt_eq] at hes
              exact (HasErrors.resolution w.index w.modules).1 [] [] l.elements es hes
          · cases h

theorem errors_ne_nil_of_buildTarget {w : Workshop} {t : Target} {e : ResourceError}
    (h : w.buildTarget t = .error e) : e.errors ≠ [] := by
  unfold Workshop.buildTarget at h
  split at h
  · cases h
    exact List.cons_ne_nil _ _
  · split at h
    · cases h
      exact List.cons_ne_nil _ _
    · exact errors_ne_nil_of_build h

theorem errors_ne_nil_of_mem_failures {g : Generator} {index : Index} {registry : Registry}
    {s : Selection} {e : ResourceError} (h : e ∈ (g.collected s index registry).failures) :
    e.errors ≠ [] := by
  obtain ⟨t, -, ht⟩ := List.mem_map.1 (mem_failed_iff.1 h)
  exact errors_ne_nil_of_buildTarget ht

theorem mem_failures_of_orFirstFailure {r : Report} {e : ResourceError}
    (h : r.orFirstFailure = .error (.resource e)) : e ∈ r.failures := by
  unfold Report.orFirstFailure at h
  split at h
  · cases h
  · next hfailures =>
      cases h
      rw [hfailures]
      exact List.mem_cons_self
  · cases h

theorem errors_ne_nil_of_generate {g : Generator} {files : List File} {s : Selection}
    {e : ResourceError} (h : g.generate files s = .error (.resource e)) : e.errors ≠ [] := by
  cases hkeep : g.keepGoing with
  | true => rcases Generator.error_of_generate hkeep h with h | ⟨file, fault, h⟩ <;> cases h
  | false =>
      rw [Generator.generate_of_failFast hkeep] at h
      rcases hindex : g.index files with e' | ⟨index, registry⟩
      · rw [hindex] at h
        cases h
        rcases Generator.error_of_index hindex with h | ⟨file, fault, h⟩ <;> cases h
      · rw [hindex] at h
        exact errors_ne_nil_of_mem_failures (mem_failures_of_orFirstFailure h)

/-- Errors at the path of a literal are those of keys that cannot be read; all others stand where keys
lead down from there. -/
theorem errors_located_by_keys (index : Index) (modules : Modules) (path : Path)
    (elements : List Expr) :
    (∀ es, resolveAt index modules path elements = .error es →
      es ≠ [] ∧
      es.filter (·.path = path) = (elements.filterMap keyFault?).map (ResolveError.mk path) ∧
      (∀ e ∈ es, e.path = path → ∀ b, e.fault ≠ .unresolvedReference b ∧
        e.fault ≠ .cyclicReference b ∧ e.fault ≠ .schemaLiteralNotFound b) ∧
      ∀ e ∈ es, e.path ≠ path →
        ∃ names, Leads index modules elements names ∧ e.path = path ++ names) ∧
    resolveAt index modules path elements =
      (resolveAt index modules [] elements).mapError (List.map (·.under path)) ∧
    ∀ g files s,
      (∀ report, Generator.generate g files s = .ok report →
        ∀ e ∈ report.failures, e.errors ≠ []) ∧
      ∀ e, Generator.generate g files s = .error (.resource e) → e.errors ≠ [] := by
  refine ⟨fun es h => ?_, ?_, fun g files s => ⟨fun report h e he => ?_,
    fun e => errors_ne_nil_of_generate⟩⟩
  · rw [resolveAt_eq] at h
    have hat := errors_at_path index modules [] path elements
    have hlocated := (resolution_located index modules).1 [] path elements
    rw [h, errorsOf_error] at hat hlocated
    refine ⟨(HasErrors.resolution index modules).1 [] path elements es h, hat, fun e he hpath => ?_,
      fun e he hpath => (hlocated e he).resolve_left hpath⟩
    -- an error at the path is one of reading a key
    have hmem : e ∈ es.filter (·.path = path) := List.mem_filter.2 ⟨he, decide_eq_true hpath⟩
    rw [hat] at hmem
    obtain ⟨f, hf, rfl⟩ := List.mem_map.1 hmem
    obtain ⟨x, -, hx⟩ := List.mem_filterMap.1 hf
    have hreading := isReading_of_keyFault? hx
    intro b
    refine ⟨?_, ?_, ?_⟩ <;> rintro rfl <;> exact hreading
  · have hunder := (resolution_under path index modules).1 [] [] elements
    rw [List.append_nil] at hunder
    rw [resolveAt_eq, resolveAt_eq, hunder]
    rfl
  · obtain ⟨index, registry, -, rfl⟩ := Generator.report_eq_collected h
    exact errors_ne_nil_of_mem_failures he

def acmeTornSchema : List Expr :=
  [.ident "size", .keyValue (.basicLit .string "\x60tags\x60") (.call (.ident "tags") [])]

theorem resolve_acmeTornSchema :
    resolveAt acmeIndex .standard ["disk"] acmeTornSchema =
      .error [⟨["disk"], .shape .keyValuePair (.ident "size")⟩,
        ⟨["disk", "tags"], .unresolvedReference "tags"⟩] := by
  have hsize : resolveElement acmeIndex .standard [] ["disk"] (.ident "size") =
      .error [⟨["disk"], .shape .keyValuePair (.ident "size")⟩] := by
    rw [resolveElement_eq]
    rfl
  have htags : resolveElement acmeIndex .standard [] ["disk"]
      (.keyValue (.basicLit .string "\x60tags\x60") (.call (.ident "tags") [])) =
        .error [⟨["disk", "tags"], .unresolvedReference "tags"⟩] := by
    have hparts : elementParts
        (.keyValue (.basicLit .string "\x60tags\x60") (.call (.ident "tags") [])) =
          .ok ("tags", .call (.ident "tags") []) := elementParts_of_unquote rfl _
    rw [resolveElement_eq, hparts]
    exact resolveBuilder_eq acmeIndex .standard [] ["disk", "tags"] "tags" "tags"
  rw [resolveAt_eq, resolveAttributes_eq, acmeTornSchema, List.map_cons, List.map_singleton, hsize,
    htags]
  rfl

theorem acme_tags_located :
    resolveAt acmeIndex .standard ["disk"] acmeTornSchema =
      .error [⟨["disk"], .shape .keyValuePair (.ident "size")⟩,
        ⟨["disk", "tags"], .unresolvedReference "tags"⟩] ∧
    Leads acmeIndex .standard acmeTornSchema ["tags"] := by
  refine ⟨resolve_acmeTornSchema, ?_⟩
  obtain ⟨hlocated, -, -⟩ := errors_located_by_keys acmeIndex .standard ["disk"] acmeTornSchema
  obtain ⟨-, -, -, hbelow⟩ := hlocated _ resolve_acmeTornSchema
  obtain ⟨names, hnames, hpath⟩ := hbelow ⟨["disk", "tags"], .unresolvedReference "tags"⟩ (by simp)
    (by decide)
  obtain rfl : names = ["tags"] := (List.cons.inj hpath).2.symm
  exact hnames

end ProviderManual.Manual
