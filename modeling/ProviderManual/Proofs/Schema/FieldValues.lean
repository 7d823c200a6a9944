import Mathlib.Data.List.Basic
import ProviderManual.Proofs.Schema.Outcome
import ProviderManual.Schema.Resolver

/-! The scalar fields of a field schema. -/

namespace ProviderManual.Schema

open ProviderManual.Source ProviderManual.Manual

inductive Spells : Expr → String → Prop
  | ident {name} : Spells (.ident name) name
  | quoted {raw name} : unquote raw = .ok name → Spells (.basicLit .string raw) name

def KeyedOtherwise (name : String) (x : Expr) : Prop :=
  ∃ key value other, x = .keyValue key value ∧ Spells key other ∧ other ≠ name

/-- A search for a name comes to this element: all before it are keyed otherwise. -/
def SearchMeets (name : String) (elements : List Expr) (x : Expr) : Prop :=
  ∃ before after, elements = before ++ x :: after ∧ ∀ y ∈ before, KeyedOtherwise name y

inductive Malformed : Expr → Fault → Prop
  | notPair {x} : (∀ key value, x ≠ .keyValue key value) → Malformed x (.shape .keyValuePair x)
  | notName {key value} : (∀ name, key ≠ .ident name) → (∀ raw, key ≠ .basicLit .string raw) →
      Malformed (.keyValue key value) (.shape .identifierOrStringKey key)
  | notReadable {raw value e} : unquote raw = .error e →
      Malformed (.keyValue (.basicLit .string raw) value) (.invalidLiteral e)

section Search

variable {name : String}

theorem keyName_eq_ok_iff {key : Expr} : keyName key = .ok name ↔ Spells key name := by
  constructor
  · intro h
    unfold keyName at h
    split at h
    · cases h
      exact .ident
    · next raw =>
        cases hu : unquote raw with
        | error e => simp [hu, liftLiteral] at h
        | ok s =>
            rw [hu] at h
            cases h
            exact .quoted hu
    · cases h
  · intro h
    cases h with
    | ident => rfl
    | quoted hu => rw [keyName, hu, liftLiteral]

theorem keyName_eq_error_iff {key value : Expr} {e : Fault} :
    keyName key = .error e ↔ Malformed (.keyValue key value) e := by
  constructor
  · intro h
    unfold keyName at h
    split at h
    · cases h
    · next raw =>
        cases hu : unquote raw with
        | ok s => simp [hu, liftLiteral] at h
        | error l =>
            rw [hu] at h
            cases h
            exact .notReadable hu
    · next hident hstring =>
        cases h
        exact .notName hident hstring
  · intro h
    cases h with
    | notPair hpair => exact absurd rfl (hpair key value)
    | notName hident hstring =>
        unfold keyName
        split
        · exact absurd rfl (hident _)
        · exact absurd rfl (hstring _)
        · rfl
    | notReadable hu => rw [keyName, hu, liftLiteral]

theorem SearchMeets.head (x : Expr) (xs : List Expr) : SearchMeets name (x :: xs) x :=
  ⟨[], xs, rfl, by simp⟩

theorem SearchMeets.cons {x y : Expr} {ys : List Expr} (hy : KeyedOtherwise name y)
    (h : SearchMeets name ys x) : SearchMeets name (y :: ys) x := by
  obtain ⟨before, after, rfl, hbefore⟩ := h
  exact ⟨y :: before, after, rfl, List.forall_mem_cons.2 ⟨hy, hbefore⟩⟩

theorem field?_of_keyedOtherwise {x : Expr} (h : KeyedOtherwise name x) (rest : List Expr) :
    field? name (x :: rest) = field? name rest := by
  obtain ⟨key, value, other, rfl, hother, hne⟩ := h
  rw [field?, keyName_eq_ok_iff.2 hother]
  exact if_neg hne

theorem field?_of_spells {key : Expr} (h : Spells key name) (value : Expr) (rest : List Expr) :
    field? name (.keyValue key value :: rest) = .ok (some value) := by
  rw [field?, keyName_eq_ok_iff.2 h]
  exact if_pos rfl

theorem field?_of_malformed {x : Expr} {e : Fault} (h : Malformed x e) (rest : List Expr) :
    field? name (x :: rest) = .error e := by
  cases h with
  | notPair hpair =>
      rw [field?]
      exact hpair
  | @notName key value hident hstring =>
      rw [field?, keyName_eq_error_iff.2 (@Malformed.notName key value hident hstring)]
  | @notReadable raw value e hu =>
      rw [field?, keyName_eq_error_iff.2 (@Malformed.notReadable raw value e hu)]

theorem field?_append {before : List Expr} (h : ∀ y ∈ before, KeyedOtherwise name y)
    (rest : List Expr) : field? name (before ++ rest) = field? name rest := by
  induction before with
  | nil => rfl
  | cons y before ih =>
      obtain ⟨hy, hbefore⟩ := List.forall_mem_cons.1 h
      rw [List.cons_append, field?_of_keyedOtherwise hy, ih hbefore]

theorem element_cases (name : String) (x : Expr) :
    KeyedOtherwise name x ∨ (∃ key value, x = .keyValue key value ∧ Spells key name) ∨
      ∃ e, Malformed x e := by
  by_cases hpair : ∃ key value, x = .keyValue key value
  · obtain ⟨key, value, rfl⟩ := hpair
    cases hk : keyName key with
    | error e => exact .inr (.inr ⟨e, keyName_eq_error_iff.1 hk⟩)
    | ok other =>
        have hspells := keyName_eq_ok_iff.1 hk
        by_cases hname : other = name
        · exact .inr (.inl ⟨key, value, rfl, hname ▸ hspells⟩)
        · exact .inl ⟨key, value, other, rfl, hspells, hname⟩
  · exact .inr (.inr ⟨_, .notPair fun key value hx => hpair ⟨key, value, hx⟩⟩)

theorem search_cases (name : String) (elements : List Expr) :
    (∀ x ∈ elements, KeyedOtherwise name x) ∨
    (∃ key value, SearchMeets name elements (.keyValue key value) ∧ Spells key name) ∨
    ∃ x e, SearchMeets name elements x ∧ Malformed x e := by
  induction elements with
  | nil => exact .inl (by simp)
  | cons x xs ih =>
      -- only an element that is keyed otherwise hands the search on
      rcases element_cases name x with hx | ⟨key, value, rfl, hkey⟩ | ⟨e, he⟩
      · rcases ih with hall | ⟨key, value, hmeets, hkey⟩ | ⟨y, e, hmeets, he⟩
        · exact .inl (List.forall_mem_cons.2 ⟨hx, hall⟩)
        · exact .inr (.inl ⟨key, value, hmeets.cons hx, hkey⟩)
        · exact .inr (.inr ⟨y, e, hmeets.cons hx, he⟩)
      · exact .inr (.inl ⟨key, value, .head _ _, hkey⟩)
      · exact .inr (.inr ⟨x, e, .head _ _, he⟩)

variable {elements : List Expr}

theorem field?_of_absent (h : ∀ x ∈ elements, KeyedOtherwise name x) :
    field? name elements = .ok none := by
  rw [← List.append_nil elements, field?_append h]
  rfl

theorem field?_of_meets_spells {key value : Expr}
    (h : SearchMeets name elements (.keyValue key value)) (hkey : Spells key name) :
    field? name elements = .ok (some value) := by
  obtain ⟨before, after, rfl, hbefore⟩ := h
  rw [field?_append hbefore, field?_of_spells hkey]

theorem field?_of_meets_malformed {x : Expr} {e : Fault} (h : SearchMeets name elements x)
    (he : Malformed x e) : field? name elements = .error e := by
  obtain ⟨before, after, rfl, hbefore⟩ := h
  rw [field?_append hbefore, field?_of_malformed he]

theorem fieldOr_map {α β : Type} (g : α → β) (default : α) (value : Expr → Except Fault α)
    (name : String) (elements : List Expr) :
    (fieldOr default value name elements).map g =
      fieldOr (g default) (fun x => (value x).map g) name elements := by
  unfold fieldOr
  split <;> rfl

end Search

inductive FieldKind where
  | text
  | flag
  | count

inductive FieldValue where
  | text (s : String)
  | flag (b : Bool)
  | count (n : Int)

inductive ScalarField where
  | description
  | required
  | optional
  | computed
  | min
  | max

namespace ScalarField

def all : List ScalarField :=
  [.description, .required, .optional, .computed, .min, .max]

theorem mem_all (f : ScalarField) : f ∈ all := by
  cases f <;> simp [all]

def key : ScalarField → String
  | .description => "Description"
  | .required => "Required"
  | .optional => "Optional"
  | .computed => "Computed"
  | .min => "MinItems"
  | .max => "MaxItems"

def kind : ScalarField → FieldKind
  | .description => .text
  | .required | .optional | .computed => .flag
  | .min | .max => .count

end ScalarField

def FieldKind.default : FieldKind → FieldValue
  | .text => .text ""
  | .flag => .flag false
  | .count => .count 0

def FieldKind.shape : FieldKind → Shape
  | .text => .stringLiteral
  | .flag => .booleanLiteral
  | .count => .integerLiteral

inductive HasShape : FieldKind → Expr → Prop
  | text {raw} : HasShape .text (.basicLit .string raw)
  | yes : HasShape .flag (.ident "true")
  | no : HasShape .flag (.ident "false")
  | count {raw} : HasShape .count (.basicLit .int raw)

/-- An expression of the right shape and the value that is read from it, a text without the blanks
around it. -/
inductive Denotes : FieldKind → Expr → FieldValue → Prop
  | text {raw s} : unquote raw = .ok s → Denotes .text (.basicLit .string raw) (.text (Text.trimmed s))
  | yes : Denotes .flag (.ident "true") (.flag true)
  | no : Denotes .flag (.ident "false") (.flag false)
  | count {raw n} : parseInt raw = .ok n → Denotes .count (.basicLit .int raw) (.count n)

inductive Undecodable : FieldKind → Expr → Fault → Prop
  | shape {kind x} : ¬ HasShape kind x → Undecodable kind x (.shape kind.shape x)
  | text {raw e} : unquote raw = .error e →
      Undecodable .text (.basicLit .string raw) (.invalidLiteral e)
  | count {raw e} : parseInt raw = .error e →
      Undecodable .count (.basicLit .int raw) (.invalidLiteral e)

/-- A field schema gives a field this value: that of the first element with the field's key, or the
default if all elements have other keys. -/
inductive Holds (f : ScalarField) (fields : List Expr) : FieldValue → Prop
  | absent : (∀ x ∈ fields, KeyedOtherwise f.key x) → Holds f fields f.kind.default
  | present {key value v} : SearchMeets f.key fields (.keyValue key value) → Spells key f.key →
      Denotes f.kind value v → Holds f fields v

/-- A field of a field schema cannot be read: the value of the first element with the field's key
cannot, or the search for that element comes to a malformed one. -/
inductive Fails (f : ScalarField) (fields : List Expr) : Fault → Prop
  | malformed {x e} : SearchMeets f.key fields x → Malformed x e → Fails f fields e
  | undecodable {key value e} : SearchMeets f.key fields (.keyValue key value) →
      Spells key f.key → Undecodable f.kind value e → Fails f fields e

namespace FieldKind

def value : FieldKind → Expr → Except Fault FieldValue
  | .text, x => (stringValue x).map fun s => .text (Text.trimmed s)
  | .flag, x => (boolValue x).map .flag
  | .count, x => (intValue x).map .count

theorem value_of_denotes {kind : FieldKind} {x : Expr} {v : FieldValue} (h : Denotes kind x v) :
    kind.value x = .ok v := by
  cases h with
  | text hs => rw [value, stringValue, hs]; rfl
  | yes => rfl
  | no => rfl
  | count hn => rw [value, intValue, hn]; rfl

theorem stringValue_of_shape {x : Expr} (h : ¬ HasShape .text x) :
    stringValue x = .error (.shape .stringLiteral x) := by
  unfold stringValue
  split
  · exact absurd .text h
  · rfl

theorem boolValue_of_shape {x : Expr} (h : ¬ HasShape .flag x) :
    boolValue x = .error (.shape .booleanLiteral x) := by
  unfold boolValue
  split
  · exact absurd .yes h
  · exact absurd .no h
  · rfl

theorem intValue_of_shape {x : Expr} (h : ¬ HasShape .count x) :
    intValue x = .error (.shape .integerLiteral x) := by
  unfold intValue
  split
  · exact absurd .count h
  · rfl

theorem value_of_undecodable {kind : FieldKind} {x : Expr} {e : Fault} (h : Undecodable kind x e) :
    kind.value x = .error e := by
  cases h with
  | shape hx =>
      cases kind with
      | text => rw [value, stringValue_of_shape hx]; rfl
      | flag => rw [value, boolValue_of_shape hx]; rfl
      | count => rw [value, intValue_of_shape hx]; rfl
  | text hs => rw [value, stringValue, hs]; rfl
  | count hn => rw [value, intValue, hn]; rfl

theorem denotes_or_undecodable (kind : FieldKind) (x : Expr) :
    (∃ v, Denotes kind x v) ∨ ∃ e, Undecodable kind x e := by
  by_cases hx : HasShape kind x
  · cases hx with
    | @text raw =>
        cases hs : unquote raw with
        | ok s => exact .inl ⟨_, .text hs⟩
        | error e => exact .inr ⟨_, .text hs⟩
    | yes => exact .inl ⟨_, .yes⟩
    | no => exact .inl ⟨_, .no⟩
    | @count raw =>
        cases hn : parseInt raw with
        | ok n => exact .inl ⟨_, .count hn⟩
        | error e => exact .inr ⟨_, .count hn⟩
  · exact .inr ⟨_, .shape hx⟩

end FieldKind

namespace ScalarField

variable {f : ScalarField} {fields : List Expr}

def read (f : ScalarField) (fields : List Expr) : Except Fault FieldValue :=
  fieldOr f.kind.default f.kind.value f.key fields

theorem read_of_holds {v : FieldValue} (h : Holds f fields v) : f.read fields = .ok v := by
  cases h with
  | absent hall => rw [read, fieldOr, field?_of_absent hall]
  | present hmeets hkey hv =>
      rw [read, fieldOr, field?_of_meets_spells hmeets hkey]
      exact FieldKind.value_of_denotes hv

theorem read_of_fails {e : Fault} (h : Fails f fields e) : f.read fields = .error e := by
  cases h with
  | malformed hmeets he => rw [read, fieldOr, field?_of_meets_malformed hmeets he]
  | undecodable hmeets hkey he =>
      rw [read, fieldOr, field?_of_meets_spells hmeets hkey]
      exact FieldKind.value_of_undecodable he

theorem holds_or_fails (f : ScalarField) (fields : List Expr) :
    (∃ v, Holds f fields v) ∨ ∃ e, Fails f fields e := by
  rcases search_cases f.key fields with hall | ⟨key, value, hmeets, hkey⟩ | ⟨x, e, hmeets, he⟩
  · exact .inl ⟨_, .absent hall⟩
  · rcases f.kind.denotes_or_undecodable value with ⟨v, hv⟩ | ⟨e, he⟩
    · exact .inl ⟨v, .present hmeets hkey hv⟩
    · exact .inr ⟨e, .undecodable hmeets hkey he⟩
  · exact .inr ⟨e, .malformed hmeets he⟩

theorem read_eq_ok_iff {v : FieldValue} : f.read fields = .ok v ↔ Holds f fields v := by
  refine ⟨fun h => ?_, read_of_holds⟩
  rcases f.holds_or_fails fields with ⟨w, hw⟩ | ⟨e, he⟩
  · rw [read_of_holds hw] at h
    cases h
    exact hw
  · rw [read_of_fails he] at h
    cases h

theorem read_eq_error_iff {e : Fault} : f.read fields = .error e ↔ Fails f fields e := by
  refine ⟨fun h => ?_, read_of_fails⟩
  rcases f.holds_or_fails fields with ⟨v, hv⟩ | ⟨d, hd⟩
  · rw [read_of_holds hv] at h
    cases h
  · rw [read_of_fails hd] at h
    cases h
    exact hd

def fault? (fields : List Expr) (f : ScalarField) : Option Fault :=
  match f.read fields with
  | .ok _ => none
  | .error e => some e

theorem fault?_eq_some_iff {e : Fault} : f.fault? fields = some e ↔ Fails f fields e := by
  rw [← read_eq_error_iff, fault?]
  cases f.read fields <;> simp

theorem fault?_eq_none_iff : f.fault? fields = none ↔ ∃ v, Holds f fields v := by
  simp only [← read_eq_ok_iff, fault?]
  cases f.read fields <;> simp

def get (a : Attribute) : ScalarField → FieldValue
  | .description => .text a.description
  | .required => .flag a.required
  | .optional => .flag a.optional
  | .computed => .flag a.computed
  | .min => .count a.min
  | .max => .count a.max

def said (s : Scalars) : ScalarField → Except Fault FieldValue
  | .description => s.description.map .text
  | .required => s.required.map .flag
  | .optional => s.optional.map .flag
  | .computed => s.computed.map .flag
  | .min => s.min.map .count
  | .max => s.max.map .count

theorem read_eq_said (f : ScalarField) (fields : List Expr) :
    f.read fields = f.said (.ofElements fields) := by
  cases f with
  | description =>
      have htrimmed : Text.trimmed "" = "" := by decide
      rw [said, Scalars.ofElements, stringField, fieldOr_map, fieldOr_map, htrimmed, read]
      congr 1
      funext x
      cases hx : stringValue x <;> simp [FieldKind.value, kind, hx, Except.map]
  | required | optional | computed => exact (fieldOr_map FieldValue.flag false boolValue _ fields).symm
  | min | max => exact (fieldOr_map FieldValue.count 0 intValue _ fields).symm

end ScalarField

theorem map_eq_ok_apply_iff {ε α β : Type} {g : α → β} (hg : Function.Injective g)
    {r : Except ε α} {a : α} : r.map g = .ok (g a) ↔ r = .ok a := by
  rw [map_eq_ok_iff]
  constructor
  · rintro ⟨b, hb, hab⟩
    rw [hg hab, hb]
  · intro h
    exact ⟨a, h, rfl⟩

theorem faultOf_map {α β : Type} (g : α → β) (r : Except Fault α) :
    faultOf (r.map g) = faultOf r := by
  cases r <;> rfl

variable {fields : List Expr}

theorem faults_ofElements :
    (Scalars.ofElements fields).faults = ScalarField.all.filterMap (ScalarField.fault? fields) := by
  have hfault : ∀ f : ScalarField,
      (f.fault? fields).toList = faultOf (f.said (.ofElements fields)) := by
    intro f
    rw [← f.read_eq_said, ScalarField.fault?]
    cases f.read fields <;> rfl
  rw [List.filterMap_eq_flatMap_toList]
  simp only [hfault, ScalarField.all, List.flatMap_cons, List.flatMap_nil, List.append_nil,
    ScalarField.said, faultOf_map, Scalars.faults, List.append_assoc]

example : (Scalars.ofElements [.ident "true"]).faults =
    List.replicate 6 (.shape .keyValuePair (.ident "true")) := by decide

theorem describes_iff {a : Attribute} :
    Describes fields a ↔ ∀ f : ScalarField, Holds f fields (f.get a) := by
  have htext : Function.Injective FieldValue.text := fun _ _ h => FieldValue.text.inj h
  have hflag : Function.Injective FieldValue.flag := fun _ _ h => FieldValue.flag.inj h
  have hcount : Function.Injective FieldValue.count := fun _ _ h => FieldValue.count.inj h
  simp only [← ScalarField.read_eq_ok_iff, ScalarField.read_eq_said]
  constructor
  · intro h f
    cases f with
    | description => exact (map_eq_ok_apply_iff htext).2 ((map_eq_ok_iff _ _ _).2 h.description)
    | required => exact (map_eq_ok_apply_iff hflag).2 h.required
    | optional => exact (map_eq_ok_apply_iff hflag).2 h.optional
    | computed => exact (map_eq_ok_apply_iff hflag).2 h.computed
    | min => exact (map_eq_ok_apply_iff hcount).2 h.min
    | max => exact (map_eq_ok_apply_iff hcount).2 h.max
  · intro h
    exact {
      description := (map_eq_ok_iff _ _ _).1 ((map_eq_ok_apply_iff htext).1 (h .description))
      required := (map_eq_ok_apply_iff hflag).1 (h .required)
      optional := (map_eq_ok_apply_iff hflag).1 (h .optional)
      computed := (map_eq_ok_apply_iff hflag).1 (h .computed)
      min := (map_eq_ok_apply_iff hcount).1 (h .min)
      max := (map_eq_ok_apply_iff hcount).1 (h .max) }

theorem exists_fails_iff :
    (∃ f e, Fails f fields e) ↔ (Scalars.ofElements fields).faults ≠ [] := by
  rw [faults_ofElements, Ne, List.filterMap_eq_nil_iff]
  simp only [← ScalarField.fault?_eq_some_iff, ← Option.ne_none_iff_exists', ScalarField.mem_all,
    forall_const, not_forall]

theorem eq_error_iff {α : Type} {o : Outcome α} {es : List ResolveError} :
    o = .error es ↔ (∃ fs, o = .error fs) ∧ es = errorsOf o := by
  cases o <;> simp [eq_comm]

theorem exists_assemble_eq_error_iff (path : Path) (name : String)
    (nested : Outcome (List Attribute)) :
    (∃ es, assemble path name fields nested = .error es) ↔
      (∃ f e, Fails f fields e) ∨ ∃ es, nested = .error es := by
  rw [exists_fails_iff]
  cases nested with
  | error es => simp [assemble]
  | ok children =>
      by_cases h : (Scalars.ofElements fields).faults = []
      · simp [assemble, h]
      · simp [assemble, h]

section FieldSchema

variable (index : Index) (modules : Modules) (s : List String) (path : Path)

def nestedOutcome (fields : List Expr) : Outcome (List Attribute) :=
  match nestedSchema fields with
  | .error e => .error [⟨path, e⟩]
  | .ok none => .ok []
  | .ok (some l) => (Resolver.attributes index modules s path l.elements).result

theorem field_result (name : String) (fields : List Expr) :
    (Resolver.field index modules s path name fields).result =
      assemble path name fields (nestedOutcome index modules s path fields) := by
  have hpair := Resolver.pair_eq index modules
  have hfield : (Resolver.field index modules s path name fields).result =
      buildAttribute index modules s path name fields :=
    congrArg Prod.fst (hpair.2.2.2 s path name fields)
  have hattributes : ∀ elements, (Resolver.attributes index modules s path elements).result =
      resolveAttributes index modules s path elements :=
    fun elements => congrArg Prod.fst (hpair.1 s path elements)
  rw [hfield, buildAttribute_eq, nestedOutcome]
  rcases nestedSchema fields with e | _ | l
  · rfl
  · rfl
  · exact congrArg (assemble path name fields) (hattributes l.elements).symm

/-- The attribute of a field schema, or else its errors: at most one of each scalar field, and all
those of the nested schema. -/
theorem attribute_of_field_schema (name : String) (fields : List Expr) :
    ∃ fault? : ScalarField → Option Fault,
      (∀ f e, fault? f = some e ↔ Fails f fields e) ∧
      (∀ f, fault? f = none ↔ ∃ v, Holds f fields v) ∧
      (∀ a, (Resolver.field index modules s path name fields).result = .ok a ↔
        a.name = name ∧ (∀ f : ScalarField, Holds f fields (f.get a)) ∧
          nestedOutcome index modules s path fields = .ok a.attributes) ∧
      ∀ es, (Resolver.field index modules s path name fields).result = .error es ↔
        ((∃ f e, Fails f fields e) ∨
          ∃ nested, nestedOutcome index modules s path fields = .error nested) ∧
        es = (ScalarField.all.filterMap fault?).map (ResolveError.mk path) ++
          errorsOf (nestedOutcome index modules s path fields) := by
  refine ⟨ScalarField.fault? fields, fun f e => ScalarField.fault?_eq_some_iff,
    fun f => ScalarField.fault?_eq_none_iff, fun a => ?_, fun es => ?_⟩
  · rw [field_result, assemble_eq_ok_iff, describes_iff, and_comm, and_assoc]
  · rw [field_result, ← faults_ofElements, ← errorsOf_assemble path name,
      ← exists_assemble_eq_error_iff path name, eq_error_iff]

end FieldSchema

end ProviderManual.Schema
