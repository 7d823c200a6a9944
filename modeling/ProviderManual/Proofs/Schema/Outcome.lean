import Mathlib.Data.Set.List
import ProviderManual.Schema.Resolve

/-! Outcomes gathered from elements, and the faults that reading a literal can have. -/

namespace ProviderManual.Schema

open ProviderManual.Source ProviderManual.Manual

variable {α β : Type}

def errorsOf : Outcome α → List ResolveError
  | .ok _ => []
  | .error es => es

@[simp] theorem errorsOf_ok (a : α) : errorsOf (.ok a : Outcome α) = [] := rfl

@[simp] theorem errorsOf_error (es : List ResolveError) :
    errorsOf (.error es : Outcome α) = es := rfl

theorem errorsOf_map (f : α → β) (o : Outcome α) : errorsOf (o.map f) = errorsOf o := by
  cases o <;> rfl

theorem gather_ok_cons (a : α) (os : List (Outcome α)) :
    gather (.ok a :: os) = (gather os).map (a :: ·) := by
  cases h : gather os <;> simp [gather, h, Except.map]

theorem gather_error_cons (es : List ResolveError) (os : List (Outcome α)) :
    gather (.error es :: os) = .error (es ++ errorsOf (gather os)) := by
  cases h : gather os <;> simp [gather, h]

theorem errorsOf_gather (os : List (Outcome α)) :
    errorsOf (gather os) = os.flatMap errorsOf := by
  induction os with
  | nil => rfl
  | cons o os ih =>
      cases o with
      | ok a => rw [gather_ok_cons, errorsOf_map, ih]; rfl
      | error es => rw [gather_error_cons, ih]; rfl

theorem gather_results (as : List α) : gather (as.map .ok) = .ok as := by
  induction as with
  | nil => rfl
  | cons a as ih => rw [List.map_cons, gather_ok_cons, ih]; rfl

theorem results_of_gather {os : List (Outcome α)} {as : List α} (h : gather os = .ok as) :
    os = as.map .ok := by
  induction os generalizing as with
  | nil => cases h; rfl
  | cons o os ih =>
      cases o with
      | error es => rw [gather_error_cons] at h; cases h
      | ok a =>
          rw [gather_ok_cons] at h
          cases hos : gather os with
          | error es => rw [hos] at h; cases h
          | ok bs =>
              rw [hos] at h
              cases h
              rw [List.map_cons, ← ih hos]

theorem exists_results_iff {os : List (Outcome α)} :
    (∃ as : List α, os = as.map .ok) ↔ ∀ o ∈ os, ∃ a, o = .ok a := by
  have hrange := Set.ext_iff.1 (Set.range_list_map (Except.ok : α → Outcome α)) os
  simpa only [Set.mem_range, Set.mem_ofPred_eq, eq_comm] using hrange

theorem exists_error_iff {o : Outcome α} : (∃ es, o = .error es) ↔ ¬ ∃ a, o = .ok a := by
  cases o <;> simp

def Fault.IsReading : Fault → Prop
  | .unexpectedShape _ _ => True
  | .invalidLiteral _ => True
  | _ => False

def FailsReading (r : Except Fault α) : Prop :=
  ∀ e, r = .error e → e.IsReading

namespace FailsReading

theorem ok (a : α) : FailsReading (.ok a) := by
  intro e h
  cases h

theorem shape (expected : Shape) (found : Expr) :
    FailsReading (.error (.shape expected found) : Except Fault α) := by
  intro e h
  cases h
  trivial

theorem liftLiteral (r : Except LiteralError α) : FailsReading (liftLiteral r) := by
  intro e h
  cases r with
  | ok a => cases h
  | error l =>
      cases h
      trivial

theorem map {r : Except Fault α} (h : FailsReading r) (f : α → β) : FailsReading (r.map f) := by
  intro e he
  cases r with
  | ok a => cases he
  | error e' =>
      cases he
      exact h _ rfl

theorem keyName (key : Expr) : FailsReading (keyName key) := by
  unfold Schema.keyName
  split
  · exact .ok _
  · exact .liftLiteral _
  · exact .shape _ _

theorem field? (name : String) (elements : List Expr) : FailsReading (field? name elements) := by
  induction elements with
  | nil => exact .ok none
  | cons x xs ih =>
      unfold Schema.field?
      split
      · exact .ok none
      · next key value rest hx =>
          obtain ⟨-, rfl⟩ := List.cons.inj hx
          split
          · next e' hk =>
              intro e he
              cases he
              exact keyName key _ hk
          · split
            · exact .ok _
            · exact ih
      · exact .shape _ _

theorem fieldOr {default : α} {value : Expr → Except Fault α} (hv : ∀ x, FailsReading (value x))
    (name : String) (elements : List Expr) : FailsReading (fieldOr default value name elements) := by
  unfold Schema.fieldOr
  split
  · next e h =>
      intro e' he
      cases he
      exact field? name elements _ h
  · exact .ok _
  · exact hv _

theorem stringField (name : String) (elements : List Expr) :
    FailsReading (stringField name elements) := by
  refine fieldOr (fun x => ?_) name elements
  unfold stringValue
  split
  · exact .liftLiteral _
  · exact .shape _ _

theorem boolField (name : String) (elements : List Expr) :
    FailsReading (boolField name elements) := by
  refine fieldOr (fun x => ?_) name elements
  unfold boolValue
  split
  · exact .ok _
  · exact .ok _
  · exact .shape _ _

theorem intField (name : String) (elements : List Expr) :
    FailsReading (intField name elements) := by
  refine fieldOr (fun x => ?_) name elements
  unfold intValue
  split
  · exact .liftLiteral _
  · exact .shape _ _

theorem elementParts (x : Expr) : FailsReading (elementParts x) := by
  unfold Schema.elementParts
  split
  · exact .liftLiteral _
  · exact .shape _ _
  · exact .shape _ _

theorem fieldSource (x : Expr) : FailsReading (fieldSource x) := by
  unfold Schema.fieldSource
  split
  · exact .ok _
  · exact .ok _
  · exact .shape _ _
  · exact .shape _ _

theorem findSchemaField (roots : List Node) : FailsReading (findSchemaField roots) := by
  intro e h
  unfold Schema.findSchemaField at h
  split at h
  · cases h
  · cases h
  · next e' hs =>
      cases h
      rw [search_eq] at hs
      obtain ⟨n, -, hn⟩ := List.exists_of_findSome?_eq_some hs
      unfold schemaAt at hn
      split at hn
      · split at hn
        · simp at hn
        · simp only [Option.some.injEq, Except.error.injEq] at hn
          exact hn ▸ trivial
      · cases hn

theorem nestedSchema (elements : List Expr) : FailsReading (nestedSchema elements) :=
  findSchemaField (elements.map .expr)

end FailsReading

theorem errorsOf_attributes (index : Index) (modules : Modules) (s : List String) (path : Path)
    (elements : List Expr) :
    errorsOf (resolveAttributes index modules s path elements) =
      elements.flatMap fun x => errorsOf (resolveElement index modules s path x) := by
  rw [resolveAttributes_eq, errorsOf_map, errorsOf_gather, List.flatMap_map]

theorem errorsOf_assemble (path : Path) (name : String) (elements : List Expr)
    (nested : Outcome (List Attribute)) :
    errorsOf (assemble path name elements nested) =
      (Scalars.ofElements elements).faults.map (ResolveError.mk path) ++ errorsOf nested := by
  cases nested with
  | error es => rfl
  | ok children =>
      simp only [assemble, errorsOf_ok, List.append_nil]
      split
      · next h => exact (List.isEmpty_iff.1 h).symm
      · rfl

theorem isReading_of_mem_faultOf {r : Except Fault α} (h : FailsReading r) {e : Fault}
    (he : e ∈ faultOf r) : e.IsReading := by
  cases r with
  | ok a => cases he
  | error e' =>
      obtain rfl := List.mem_singleton.1 he
      exact h e rfl

theorem isReading_of_mem_faults {elements : List Expr} {e : Fault}
    (he : e ∈ (Scalars.ofElements elements).faults) : e.IsReading := by
  simp only [Scalars.faults, Scalars.ofElements, List.mem_append] at he
  rcases he with ((((he | he) | he) | he) | he) | he
  · exact isReading_of_mem_faultOf ((FailsReading.stringField _ _).map _) he
  · exact isReading_of_mem_faultOf (.boolField _ _) he
  · exact isReading_of_mem_faultOf (.boolField _ _) he
  · exact isReading_of_mem_faultOf (.boolField _ _) he
  · exact isReading_of_mem_faultOf (.intField _ _) he
  · exact isReading_of_mem_faultOf (.intField _ _) he

structure Describes (fields : List Expr) (a : Attribute) : Prop where
  description : ∃ text, stringField "Description" fields = .ok text ∧
    a.description = Text.trimmed text
  required : boolField "Required" fields = .ok a.required
  optional : boolField "Optional" fields = .ok a.optional
  computed : boolField "Computed" fields = .ok a.computed
  min : intField "MinItems" fields = .ok a.min
  max : intField "MaxItems" fields = .ok a.max

theorem faultOf_eq_nil_iff (default : α) (r : Except Fault α) :
    faultOf r = [] ↔ r = .ok (valueOf default r) := by
  cases r <;> simp [faultOf, valueOf]

theorem map_eq_ok_iff {ε : Type} (r : Except ε α) (f : α → β) (b : β) :
    r.map f = .ok b ↔ ∃ a, r = .ok a ∧ b = f a := by
  cases r <;> simp [Except.map, eq_comm]

theorem describes_toAttribute_iff (name : String) (fields : List Expr)
    (children : List Attribute) :
    Describes fields ((Scalars.ofElements fields).toAttribute name children) ↔
      (Scalars.ofElements fields).faults = [] := by
  simp only [Scalars.faults, List.append_eq_nil_iff, faultOf_eq_nil_iff "",
    faultOf_eq_nil_iff false, faultOf_eq_nil_iff (0 : Int)]
  constructor
  · intro h
    refine ⟨⟨⟨⟨⟨?_, h.required⟩, h.optional⟩, h.computed⟩, h.min⟩, h.max⟩
    exact (map_eq_ok_iff _ _ _).2 h.description
  · rintro ⟨⟨⟨⟨⟨hd, hr⟩, ho⟩, hc⟩, hmin⟩, hmax⟩
    exact ⟨(map_eq_ok_iff _ _ _).1 hd, hr, ho, hc, hmin, hmax⟩

theorem eq_toAttribute_of_describes {fields : List Expr} {a : Attribute} (h : Describes fields a) :
    (Scalars.ofElements fields).toAttribute a.name a.attributes = a := by
  obtain ⟨⟨text, ht, hd⟩, hr, ho, hc, hmin, hmax⟩ := h
  cases a
  simp_all [Scalars.toAttribute, Scalars.ofElements, valueOf, Except.map]

theorem assemble_eq_ok_iff {path : Path} {name : String} {fields : List Expr}
    {nested : Outcome (List Attribute)} {a : Attribute} :
    assemble path name fields nested = .ok a ↔
      nested = .ok a.attributes ∧ a.name = name ∧ Describes fields a := by
  cases nested with
  | error es => simp [assemble]
  | ok children =>
      simp only [assemble, List.isEmpty_map, List.isEmpty_iff]
      constructor
      · intro h
        split at h
        · next hf =>
            cases h
            exact ⟨rfl, rfl, (describes_toAttribute_iff name fields children).2 hf⟩
        · cases h
      · rintro ⟨hnested, rfl, h⟩
        cases hnested
        have ha := eq_toAttribute_of_describes h
        rw [← ha, describes_toAttribute_iff] at h
        rw [if_pos h, ha]

section Calls

variable {index : Index} {modules : Modules} {s : List String} {path : Path}

theorem resolveAttributes_eq_ok_iff {elements : List Expr} {as : List Attribute} :
    resolveAttributes index modules s path elements = .ok as ↔
      ∃ bs, elements.map (resolveElement index modules s path) = bs.map .ok ∧
        as = sortAttributes bs := by
  rw [resolveAttributes_eq, map_eq_ok_iff]
  refine exists_congr fun bs => and_congr_left fun _ => ⟨results_of_gather, fun h => ?_⟩
  rw [h, gather_results]

theorem exists_resolveAttributes_eq_ok_iff {elements : List Expr} :
    (∃ as, resolveAttributes index modules s path elements = .ok as) ↔
      ∀ x ∈ elements, ∃ a, resolveElement index modules s path x = .ok a := by
  have hresults := @exists_results_iff _ (elements.map (resolveElement index modules s path))
  rw [List.forall_mem_map] at hresults
  rw [← hresults]
  constructor
  · rintro ⟨as, h⟩
    obtain ⟨bs, hbs, -⟩ := resolveAttributes_eq_ok_iff.1 h
    exact ⟨bs, hbs⟩
  · rintro ⟨bs, hbs⟩
    exact ⟨sortAttributes bs, resolveAttributes_eq_ok_iff.2 ⟨bs, hbs, rfl⟩⟩

theorem exists_resolveAttributes_eq_error_iff {elements : List Expr} :
    (∃ es, resolveAttributes index modules s path elements = .error es) ↔
      ∃ x ∈ elements, ∃ es, resolveElement index modules s path x = .error es := by
  simp only [exists_error_iff, exists_resolveAttributes_eq_ok_iff, not_forall, exists_prop]

theorem resolveElement_iff {P : Outcome Attribute → Prop}
    (hP : ∀ path e, e.IsReading → ¬ P (.error [⟨path, e⟩])) {x : Expr} :
    P (resolveElement index modules s path x) ↔
      ∃ name value, elementParts x = .ok (name, value) ∧
        ((∃ fields, fieldSource value = .ok (.inline fields) ∧
            P (buildAttribute index modules s (path ++ [name]) name fields)) ∨
          ∃ b, fieldSource value = .ok (.builder b) ∧
            P (resolveBuilder index modules s (path ++ [name]) name b)) := by
  rw [resolveElement_eq]
  rcases hp : elementParts x with e | ⟨name, value⟩
  · have hreading := hP path e (FailsReading.elementParts x e hp)
    simp [hreading]
  · dsimp only
    rcases hs : fieldSource value with e | source
    · have hreading := hP (path ++ [name]) e (FailsReading.fieldSource value e hs)
      simp [hreading, hs, and_assoc]
    · cases source with
      | inline fields => simp [hs, and_assoc]
      | builder b => simp [hs, and_assoc]

theorem resolveElement_eq_ok_iff {x : Expr} {a : Attribute} :
    resolveElement index modules s path x = .ok a ↔
      ∃ name value, elementParts x = .ok (name, value) ∧
        ((∃ fields, fieldSource value = .ok (.inline fields) ∧
            buildAttribute index modules s (path ++ [name]) name fields = .ok a) ∨
          ∃ b, fieldSource value = .ok (.builder b) ∧
            resolveBuilder index modules s (path ++ [name]) name b = .ok a) :=
  resolveElement_iff (P := (· = .ok a)) (by simp)

theorem resolveBuilder_eq_ok_iff {name b : String} {a : Attribute} :
    resolveBuilder index modules s path name b = .ok a ↔
      b ∉ s ∧ ∃ d l, index.schema? b = some d ∧ builderLiteral modules d = some l ∧
        buildAttribute index modules (b :: s) path name l.elements = .ok a := by
  rw [resolveBuilder_eq]
  cases hd : index.schema? b with
  | none => simp
  | some d =>
      by_cases hb : b ∈ s
      · simp [hb]
      · cases hl : builderLiteral modules d with
        | none => simp [hb, hl]
        | some l => simp [hb, hl]

theorem buildAttribute_eq_ok_iff {name : String} {fields : List Expr} {a : Attribute} :
    buildAttribute index modules s path name fields = .ok a ↔
      a.name = name ∧ Describes fields a ∧
        ((nestedSchema fields = .ok none ∧ a.attributes = []) ∨
          ∃ l, nestedSchema fields = .ok (some l) ∧
            resolveAttributes index modules s path l.elements = .ok a.attributes) := by
  rw [buildAttribute_eq, assemble_eq_ok_iff, and_comm, and_assoc]
  refine and_congr_right fun _ => and_congr_right fun _ => ?_
  rcases hn : nestedSchema fields with e | l
  · simp
  · cases l with
    | none => simp [eq_comm]
    | some l => simp

end Calls

def Fault.IsOfResolution : Fault → Prop
  | .unresolvedReference _ => True
  | .cyclicReference _ => True
  | .schemaLiteralNotFound _ => True
  | f => f.IsReading

theorem Fault.IsReading.isOfResolution {f : Fault} (h : f.IsReading) : f.IsOfResolution := by
  cases f <;> trivial

theorem resolution_of_single (index : Index) (modules : Modules) {P : ∀ α : Type, Outcome α → Prop}
    (hnone : P (List Attribute) (.ok []))
    (hsingle : ∀ α path (f : Fault), f.IsOfResolution → P α (.error [⟨path, f⟩]))
    (hgather : ∀ os : List (Outcome Attribute),
      (∀ o ∈ os, P Attribute o) → P (List Attribute) ((gather os).map sortAttributes))
    (hassemble : ∀ nested, P (List Attribute) nested →
      ∀ path name fields, P Attribute (assemble path name fields nested)) :
    (∀ s path elements, P (List Attribute) (resolveAttributes index modules s path elements)) ∧
    (∀ s path x, P Attribute (resolveElement index modules s path x)) ∧
    (∀ s path name b, P Attribute (resolveBuilder index modules s path name b)) ∧
    (∀ s path name fields, P Attribute (buildAttribute index modules s path name fields)) := by
  refine resolution_induct index modules ?_ ?_ ?_ ?_
  · intro s path elements ih
    rw [resolveAttributes_eq]
    exact hgather _ (List.forall_mem_map.2 ih)
  · intro s path x hinline hbuilder
    rw [resolveElement_eq]
    rcases hp : elementParts x with e | ⟨name, value⟩
    · exact hsingle _ path e (FailsReading.elementParts x e hp).isOfResolution
    · dsimp only
      rcases hs : fieldSource value with e | source
      · exact hsingle _ _ e (FailsReading.fieldSource value e hs).isOfResolution
      · cases source with
        | inline fields => exact hinline name value fields hp hs
        | builder b => exact hbuilder name value b hp hs
  · intro s path name b ih
    rw [resolveBuilder_eq]
    cases hd : index.schema? b with
    | none => exact hsingle _ path _ trivial
    | some d =>
        dsimp only
        split
        · exact hsingle _ path _ trivial
        · next hb =>
            cases hl : builderLiteral modules d with
            | none => exact hsingle _ path _ trivial
            | some l => exact ih d l hd hb hl
  · intro s path name fields ih
    rw [buildAttribute_eq]
    refine hassemble _ ?_ path name fields
    rcases hn : nestedSchema fields with e | l
    · exact hsingle _ path e (FailsReading.nestedSchema fields e hn).isOfResolution
    · cases l with
      | none => exact hnone
      | some l => exact ih l hn

def FailsResolving (o : Outcome α) : Prop :=
  ∀ e ∈ errorsOf o, e.fault.IsOfResolution

namespace FailsResolving

theorem ok (a : α) : FailsResolving (.ok a) := by
  intro e he
  cases he

theorem single (path : Path) {f : Fault} (h : f.IsOfResolution) :
    FailsResolving (.error [⟨path, f⟩] : Outcome α) := by
  intro e he
  obtain rfl := List.mem_singleton.1 he
  exact h

theorem assemble {nested : Outcome (List Attribute)} (h : FailsResolving nested) (path : Path)
    (name : String) (fields : List Expr) :
    FailsResolving (Schema.assemble path name fields nested) := by
  intro e he
  rw [errorsOf_assemble] at he
  rcases List.mem_append.1 he with he | he
  · obtain ⟨f, hf, rfl⟩ := List.mem_map.1 he
    exact (isReading_of_mem_faults hf).isOfResolution
  · exact h e he

theorem gathered {os : List (Outcome Attribute)} (h : ∀ o ∈ os, FailsResolving o) :
    FailsResolving ((gather os).map sortAttributes) := by
  intro e he
  rw [errorsOf_map, errorsOf_gather] at he
  obtain ⟨o, ho, he⟩ := List.mem_flatMap.1 he
  exact h o ho e he

theorem resolution (index : Index) (modules : Modules) :
    (∀ s path elements, FailsResolving (resolveAttributes index modules s path elements)) ∧
    (∀ s path x, FailsResolving (resolveElement index modules s path x)) ∧
    (∀ s path name b, FailsResolving (resolveBuilder index modules s path name b)) ∧
    (∀ s path name fields, FailsResolving (buildAttribute index modules s path name fields)) :=
  resolution_of_single index modules (P := fun _ => FailsResolving) (ok []) (fun _ => single)
    (fun _ => gathered) (fun _ h => h.assemble)

end FailsResolving

end ProviderManual.Schema
