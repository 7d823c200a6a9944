import ProviderManual.Proofs.Schema.Outcome
import ProviderManual.Proofs.Source.RenamedQualifiers

/-! Reading literals whose qualifiers have been renamed. -/

namespace ProviderManual.Schema

open ProviderManual.Source ProviderManual.Manual

variable {old new : String}

section Results

variable {ε α β : Type}

theorem eq_ok_iff_toOption {r : Except ε α} {a : α} : r = .ok a ↔ r.toOption = some a := by
  cases r <;> simp [Except.toOption]

theorem exists_error_of_toOption {r : Except ε α} (h : r.toOption = none) : ∃ e, r = .error e := by
  cases r with
  | error e => exact ⟨e, rfl⟩
  | ok a => cases h

theorem toOption_error (e e' : ε) :
    (.error e : Except ε α).toOption = (.error e' : Except ε α).toOption := rfl

theorem toOption_map (f : α → β) (r : Except ε α) : (r.map f).toOption = r.toOption.map f := by
  cases r <;> rfl

theorem toOption_liftLiteral (r : Except LiteralError α) : (liftLiteral r).toOption = r.toOption := by
  cases r <;> rfl

theorem toOption_bind (r : Except ε α) (f : α → Except ε β) :
    (r >>= f).toOption = r.toOption.bind fun a => (f a).toOption := by
  cases r <;> rfl

theorem toOption_mapM (f : α → Except ε β) (xs : List α) :
    (xs.mapM f).toOption = xs.mapM fun x => (f x).toOption := by
  induction xs with
  | nil => rfl
  | cons x xs ih =>
      rw [List.mapM_cons, List.mapM_cons, toOption_bind]
      refine Option.bind_congr fun b _ => ?_
      rw [toOption_bind, ih]
      rfl

end Results

section Fields

theorem keyName_renameQualifier (key : Expr) :
    (keyName (key.renameQualifier old new)).toOption = (keyName key).toOption := by
  cases key with
  | ident name => rfl
  | basicLit kind raw => rfl
  | composite type elements => cases type <;> exact toOption_error _ _
  | _ => exact toOption_error _ _

theorem field?_renameQualifier (name : String) (elements : List Expr) :
    (field? name (renameQualifierExprs old new elements)).toOption =
      (field? name elements).toOption.map (Option.map (Expr.renameQualifier old new)) := by
  induction elements with
  | nil => rfl
  | cons x xs ih =>
      cases x with
      | keyValue key value =>
          have hkey := @keyName_renameQualifier old new key
          simp only [renameQualifierExprs, Expr.renameQualifier, field?]
          cases hk : keyName key with
          | error e =>
              rw [hk] at hkey
              obtain ⟨e', hk'⟩ := exists_error_of_toOption hkey
              rw [hk']
              rfl
          | ok k =>
              have hk' := eq_ok_iff_toOption.2 (hkey.trans (eq_ok_iff_toOption.1 hk))
              rw [hk']
              dsimp only
              split
              · rfl
              · exact ih
      | composite type elements => cases type <;> rfl
      | _ => rfl

variable {α : Type} {default : α} {value : Expr → Except Fault α}

theorem fieldOr_renameQualifier
    (hvalue : ∀ x, (value (x.renameQualifier old new)).toOption = (value x).toOption)
    (name : String) (elements : List Expr) :
    (fieldOr default value name (renameQualifierExprs old new elements)).toOption =
      (fieldOr default value name elements).toOption := by
  have hfield := @field?_renameQualifier old new name elements
  unfold fieldOr
  cases hf : field? name elements with
  | error e =>
      rw [hf] at hfield
      obtain ⟨e', hf'⟩ := exists_error_of_toOption hfield
      rw [hf']
      rfl
  | ok x =>
      rw [hf, Except.toOption, Option.map_some, ← eq_ok_iff_toOption] at hfield
      rw [hfield]
      cases x with
      | none => rfl
      | some x => exact hvalue x

theorem stringField_renameQualifier (name : String) (elements : List Expr) :
    (stringField name (renameQualifierExprs old new elements)).toOption =
      (stringField name elements).toOption := by
  refine fieldOr_renameQualifier (fun x => ?_) name elements
  cases x with
  | basicLit kind raw => rfl
  | composite type elements => cases type <;> exact toOption_error _ _
  | _ => exact toOption_error _ _

theorem boolField_renameQualifier (name : String) (elements : List Expr) :
    (boolField name (renameQualifierExprs old new elements)).toOption =
      (boolField name elements).toOption := by
  refine fieldOr_renameQualifier (fun x => ?_) name elements
  cases x with
  | ident name => rfl
  | composite type elements => cases type <;> exact toOption_error _ _
  | _ => exact toOption_error _ _

theorem intField_renameQualifier (name : String) (elements : List Expr) :
    (intField name (renameQualifierExprs old new elements)).toOption =
      (intField name elements).toOption := by
  refine fieldOr_renameQualifier (fun x => ?_) name elements
  cases x with
  | basicLit kind raw => rfl
  | composite type elements => cases type <;> exact toOption_error _ _
  | _ => exact toOption_error _ _

theorem describes_renameQualifier {fields : List Expr} {a : Attribute} :
    Describes (renameQualifierExprs old new fields) a ↔ Describes fields a := by
  have hfields (fields : List Expr) : Describes fields a ↔
      (∃ text, (stringField "Description" fields).toOption = some text ∧
        a.description = Text.trimmed text) ∧
      (boolField "Required" fields).toOption = some a.required ∧
      (boolField "Optional" fields).toOption = some a.optional ∧
      (boolField "Computed" fields).toOption = some a.computed ∧
      (intField "MinItems" fields).toOption = some a.min ∧
      (intField "MaxItems" fields).toOption = some a.max := by
    simp only [← eq_ok_iff_toOption]
    exact ⟨fun ⟨hd, hr, ho, hc, hmin, hmax⟩ => ⟨hd, hr, ho, hc, hmin, hmax⟩,
      fun ⟨hd, hr, ho, hc, hmin, hmax⟩ => ⟨hd, hr, ho, hc, hmin, hmax⟩⟩
  rw [hfields, hfields]
  simp only [stringField_renameQualifier, boolField_renameQualifier, intField_renameQualifier]

end Fields

section Parts

theorem elementParts_renameQualifier (x : Expr) :
    (elementParts (x.renameQualifier old new)).toOption =
      (elementParts x).toOption.map fun p => (p.1, p.2.renameQualifier old new) := by
  cases x with
  | keyValue key value =>
      cases key with
      | basicLit kind raw =>
          cases kind with
          | string =>
              simp only [Expr.renameQualifier, elementParts, toOption_liftLiteral, toOption_map,
                Option.map_map]
              rfl
          | _ => rfl
      | composite type elements => cases type <;> rfl
      | _ => rfl
  | composite type elements => cases type <;> rfl
  | _ => rfl

def FieldSource.renameQualifier (old new : String) : FieldSource → FieldSource
  | .inline elements => .inline (renameQualifierExprs old new elements)
  | .builder b => .builder b

theorem fieldSource_renameQualifier (x : Expr) :
    (fieldSource (x.renameQualifier old new)).toOption =
      (fieldSource x).toOption.map (FieldSource.renameQualifier old new) := by
  cases x with
  | call callee args =>
      cases callee with
      | ident name => rfl
      | composite type elements => cases type <;> rfl
      | _ => rfl
  | composite type elements => cases type <;> rfl
  | _ => rfl

theorem schemaAt_renamed {n n' : Node} (h : NodeRenamed old new n n') :
    Option.Rel (fun r r' => r'.toOption = r.toOption.map (Literal.renameQualifier old new))
      (schemaAt n) (schemaAt n') := by
  cases h with
  | stmt | operand => exact .none
  | expr x =>
      cases x with
      | keyValue key value =>
          cases key with
          | ident name =>
              by_cases hname : name = "Schema"
              · subst hname
                refine .some ?_
                cases value with
                | composite type elements => cases type <;> rfl
                | _ => rfl
              · have hnone (value : Expr) : schemaAt (.expr (.keyValue (.ident name) value)) = none := by
                  unfold schemaAt
                  split
                  · next heq =>
                      cases heq
                      exact absurd rfl hname
                  · rfl
                rw [Expr.renameQualifier, Expr.renameQualifier, hnone, hnone]
                exact .none
          | composite type elements => cases type <;> exact .none
          | _ => exact .none
      | composite type elements => cases type <;> exact .none
      | _ => exact .none

theorem findSchemaField_renamed {roots roots' : List Node}
    (h : ListingRenamed old new (roots.flatMap Node.nodes) (roots'.flatMap Node.nodes)) :
    (findSchemaField roots').toOption =
      (findSchemaField roots).toOption.map (Option.map (Literal.renameQualifier old new)) := by
  have hfound := findSome?_corresponding h fun n n' => schemaAt_renamed
  unfold findSchemaField
  rw [search_eq, search_eq]
  generalize (roots.flatMap Node.nodes).findSome? schemaAt = o at hfound ⊢
  generalize (roots'.flatMap Node.nodes).findSome? schemaAt = o' at hfound ⊢
  cases hfound with
  | none => rfl
  | @some r r' hr => cases r <;> cases r' <;> first | cases hr; rfl | cases hr

theorem nestedSchema_renameQualifier (elements : List Expr) :
    (nestedSchema (renameQualifierExprs old new elements)).toOption =
      (nestedSchema elements).toOption.map (Option.map (Literal.renameQualifier old new)) := by
  refine findSchemaField_renamed ?_
  rw [← exprNodes_eq, ← exprNodes_eq]
  exact exprs_listing_renameQualifier elements

end Parts

section Registries

theorem assigned_renamed (field : String) {n n' : Node} (h : NodeRenamed old new n n') :
    assigned field n' = (assigned field n).map (Expr.renameQualifier old new) := by
  cases h with
  | stmt | operand => rfl
  | expr x =>
      cases x with
      | keyValue key value =>
          cases key with
          | ident name =>
              simp only [Expr.renameQualifier, assigned]
              split <;> rfl
          | composite type elements => cases type <;> rfl
          | _ => rfl
      | composite type elements => cases type <;> rfl
      | _ => rfl

def Found.renameQualifier (old new : String) (f : Found) : Found where
  dataSources := f.dataSources.map (Expr.renameQualifier old new)
  resources := f.resources.map (Expr.renameQualifier old new)

theorem see_renamed {n n' : Node} (h : NodeRenamed old new n n') (f : Found) :
    (f.renameQualifier old new).see n' = (f.see n).renameQualifier old new := by
  simp only [Found.see, Found.renameQualifier, assigned_renamed _ h, Option.map_or]

theorem isComplete_renameQualifier (f : Found) :
    (f.renameQualifier old new).isComplete = f.isComplete := by
  simp only [Found.isComplete, Found.renameQualifier, Option.isSome_map]

theorem visitAll_renamed {ns ns' : List Node} (h : ListingRenamed old new ns ns') (f : Found) :
    (visitAll Found.visit ns' (f.renameQualifier old new)).state =
      (visitAll Found.visit ns f).state.renameQualifier old new := by
  induction h generalizing f with
  | nil => rfl
  | @cons n n' ns ns' hn _ ih =>
      simp only [visitAll, Found.visit, see_renamed hn, isComplete_renameQualifier]
      cases (f.see n).isComplete with
      | true => rfl
      | false => exact ih (f.see n)

theorem findRegistries_renameQualifier (provider : Func) :
    findRegistries (provider.renameQualifier old new) =
      (findRegistries provider).renameQualifier old new := by
  rw [findRegistries, findRegistries, walkAll_eq, walkAll_eq]
  exact visitAll_renamed provider.listing_renameQualifier ⟨none, none⟩

theorem entryOf_renameQualifier (x : Expr) :
    (entryOf (x.renameQualifier old new)).toOption = (entryOf x).toOption := by
  have hname (key : Expr) :
      (entryName (key.renameQualifier old new)).toOption = (entryName key).toOption := by
    cases key with
    | basicLit kind raw => rfl
    | composite type elements => cases type <;> exact toOption_error _ _
    | _ => exact toOption_error _ _
  have hconstructor (name : String) (value : Expr) :
      (entryConstructor name (value.renameQualifier old new)).toOption =
        (entryConstructor name value).toOption := by
    cases value with
    | call callee args =>
        cases callee with
        | ident constructor => rfl
        | composite type elements => cases type <;> exact toOption_error _ _
        | _ => exact toOption_error _ _
    | composite type elements => cases type <;> exact toOption_error _ _
    | _ => exact toOption_error _ _
  cases x with
  | keyValue key value =>
      simp only [Expr.renameQualifier, entryOf, toOption_bind, hname, hconstructor]
  | composite type elements => cases type <;> exact toOption_error _ _
  | _ => exact toOption_error _ _

theorem readEntries_renameQualifier (value : Option Expr) :
    (readEntries (value.map (Expr.renameQualifier old new))).toOption =
      (readEntries value).toOption := by
  have helements (elements : List Expr) :
      ((renameQualifierExprs old new elements).mapM entryOf).toOption =
        (elements.mapM entryOf).toOption := by
    rw [toOption_mapM, toOption_mapM, renameQualifierExprs_eq, List.mapM_map]
    exact congrArg (elements.mapM ·) (funext entryOf_renameQualifier)
  cases value with
  | none => rfl
  | some x =>
      cases x with
      | composite type elements =>
          rw [Option.map_some, Expr.renameQualifier_composite]
          simp only [readEntries, toOption_map, helements]
      | _ => rfl

theorem entries?_extract_renameQualifier (provider : Func) (type : ResourceType) :
    (Registry.extract (provider.renameQualifier old new)).entries? type =
      (Registry.extract provider).entries? type := by
  have hread (type : ResourceType) (value : Option Expr) :
      (constructorNames type value).toOption = (readEntries value).toOption := by
    unfold constructorNames
    cases readEntries value <;> rfl
  unfold Registry.entries? Registry.extract
  rw [findRegistries_renameQualifier]
  cases type <;>
    simp only [Registry.get, hread, Found.renameQualifier, readEntries_renameQualifier]

end Registries

end ProviderManual.Schema
