import ProviderManual.Schema.Field
import ProviderManual.Schema.Index
import ProviderManual.Source.Section

/-! The outcome of each call as a function of the builders under expansion. -/

namespace ProviderManual.Schema

open ProviderManual.Source ProviderManual.Manual

def schemaAt : Node → Option (Except Fault Literal)
  | .expr (.keyValue (.ident "Schema") value) =>
      some (match value.literal? with
        | some l => .ok l
        | none => .error (.shape .compositeLiteral value))
  | _ => none

def findSchemaField (roots : List Node) : Except Fault (Option Literal) :=
  match search schemaAt roots with
  | none => .ok none
  | some (.ok l) => .ok (some l)
  | some (.error e) => .error e

def nestedSchema (elements : List Expr) : Except Fault (Option Literal) :=
  findSchemaField (elements.map .expr)

def literalOfType (imports : ImportMap) (modules : Modules) : Node → Option Literal
  | .expr (.composite (some type) elements) =>
      if imports.isQualified modules.schema "Schema" type then some ⟨some type, elements⟩ else none
  | _ => none

def builderLiteral (modules : Modules) (builder : Decl) : Option Literal :=
  search (literalOfType builder.imports modules) builder.func.roots

structure Scalars where
  description : Except Fault String
  required : Except Fault Bool
  optional : Except Fault Bool
  computed : Except Fault Bool
  min : Except Fault Int
  max : Except Fault Int

def Scalars.ofElements (elements : List Expr) : Scalars where
  description := (stringField "Description" elements).map Text.trimmed
  required := boolField "Required" elements
  optional := boolField "Optional" elements
  computed := boolField "Computed" elements
  min := intField "MinItems" elements
  max := intField "MaxItems" elements

def faultOf {α : Type} : Except Fault α → List Fault
  | .ok _ => []
  | .error e => [e]

def valueOf {α : Type} (default : α) : Except Fault α → α
  | .ok a => a
  | .error _ => default

def Scalars.faults (s : Scalars) : List Fault :=
  faultOf s.description ++ faultOf s.required ++ faultOf s.optional ++ faultOf s.computed
    ++ faultOf s.min ++ faultOf s.max

def Scalars.toAttribute (s : Scalars) (name : String) (children : List Attribute) : Attribute where
  name := name
  description := valueOf "" s.description
  required := valueOf false s.required
  optional := valueOf false s.optional
  computed := valueOf false s.computed
  attributes := children
  min := valueOf 0 s.min
  max := valueOf 0 s.max

abbrev Outcome (α : Type) := Except (List ResolveError) α

def gather {α : Type} : List (Outcome α) → Outcome (List α)
  | [] => .ok []
  | .ok a :: rest =>
      match gather rest with
      | .ok as => .ok (a :: as)
      | .error es => .error es
  | .error es :: rest =>
      match gather rest with
      | .ok _ => .error es
      | .error fs => .error (es ++ fs)

def assemble (path : Path) (name : String) (elements : List Expr)
    (nested : Outcome (List Attribute)) : Outcome Attribute :=
  let scalars := Scalars.ofElements elements
  let faults := scalars.faults.map fun e => (⟨path, e⟩ : ResolveError)
  match nested with
  | .error es => .error (faults ++ es)
  | .ok children =>
      if faults.isEmpty then .ok (scalars.toAttribute name children) else .error faults

inductive FieldSource where
  | inline (elements : List Expr)
  | builder (name : String)
  deriving Inhabited

def fieldSource : Expr → Except Fault FieldSource
  | .composite _ elements => .ok (.inline elements)
  | .call (.ident name) _ => .ok (.builder name)
  | .call callee _ => .error (.shape .schemaCall callee)
  | other => .error (.shape .compositeLiteralOrCall other)

def elementParts : Expr → Except Fault (String × Expr)
  | .keyValue (.basicLit .string raw) value => liftLiteral ((unquote raw).map (·, value))
  | .keyValue key _ => .error (.shape .stringKey key)
  | other => .error (.shape .keyValuePair other)

theorem elementParts_eq_ok_iff {x value : Expr} {name : String} :
    elementParts x = .ok (name, value) ↔
      ∃ raw, x = .keyValue (.basicLit .string raw) value ∧ unquote raw = .ok name := by
  constructor
  · intro h
    unfold elementParts at h
    split at h
    · next raw v =>
        cases hu : unquote raw with
        | error e => simp [hu, liftLiteral, Except.map] at h
        | ok s =>
            simp only [hu, liftLiteral, Except.map, Except.ok.injEq, Prod.mk.injEq] at h
            obtain ⟨rfl, rfl⟩ := h
            exact ⟨raw, rfl, hu⟩
    · cases h
    · cases h
  · rintro ⟨raw, rfl, hu⟩
    simp [elementParts, hu, liftLiteral, Except.map]

theorem elementParts_of_unquote {raw name : String} (h : unquote raw = .ok name) (value : Expr) :
    elementParts (.keyValue (.basicLit .string raw) value) = .ok (name, value) :=
  elementParts_eq_ok_iff.2 ⟨raw, rfl, h⟩

theorem fieldSource_eq_inline_iff {x : Expr} {elements : List Expr} :
    fieldSource x = .ok (.inline elements) ↔ ∃ type, x = .composite type elements := by
  constructor
  · intro h
    unfold fieldSource at h
    split at h
    · next type es =>
        cases h
        exact ⟨type, rfl⟩
    · cases h
    · cases h
    · cases h
  · rintro ⟨type, rfl⟩
    rfl

theorem fieldSource_eq_builder_iff {x : Expr} {b : String} :
    fieldSource x = .ok (.builder b) ↔ ∃ args, x = .call (.ident b) args := by
  constructor
  · intro h
    unfold fieldSource at h
    split at h
    · cases h
    · next name args =>
        cases h
        exact ⟨args, rfl⟩
    · cases h
    · cases h
  · rintro ⟨args, rfl⟩
    rfl

theorem weight_of_elementParts {x value : Expr} {name : String}
    (h : elementParts x = .ok (name, value)) : value.weight < x.weight := by
  obtain ⟨raw, rfl, -⟩ := elementParts_eq_ok_iff.1 h
  exact weight_lt_keyValue _ _

theorem weight_of_fieldSource {x : Expr} {elements : List Expr}
    (h : fieldSource x = .ok (.inline elements)) : exprsWeight elements < x.weight := by
  obtain ⟨type, rfl⟩ := fieldSource_eq_inline_iff.1 h
  exact exprsWeight_lt_composite _ _

theorem exists_node_of_findSchemaField {roots : List Node} {l : Literal}
    (h : findSchemaField roots = .ok (some l)) :
    Node.expr (.keyValue (.ident "Schema") l.toExpr) ∈ roots.flatMap Node.nodes := by
  unfold findSchemaField at h
  rw [search_eq] at h
  split at h
  · cases h
  · next l' hs =>
      simp only [Except.ok.injEq, Option.some.injEq] at h
      subst h
      obtain ⟨n, hn, hat⟩ := List.exists_of_findSome?_eq_some hs
      unfold schemaAt at hat
      split at hat
      · next value =>
          unfold Expr.literal? at hat
          split at hat
          · next heq =>
              split at heq
              · next type elements =>
                  simp only [Option.some.injEq, Except.ok.injEq] at hat heq
                  subst hat
                  subst heq
                  exact hn
              · cases heq
          · simp at hat
      · cases hat
  · cases h

theorem weight_of_nestedSchema {elements : List Expr} {l : Literal}
    (h : nestedSchema elements = .ok (some l)) :
    exprsWeight l.elements < exprsWeight elements := by
  have hmem := exists_node_of_findSchemaField h
  rw [← exprNodes_eq] at hmem
  have h₁ := weight_le_of_mem_nodes hmem
  have h₂ := weight_lt_keyValue (.ident "Schema") l.toExpr
  have h₃ : exprsWeight l.elements < l.toExpr.weight := exprsWeight_lt_composite l.type l.elements
  omega

def untried (index : Index) (expanding : List String) : List String :=
  index.schemas.names.filter (· ∉ expanding)

theorem untried_cons_lt {index : Index} {expanding : List String} {b : String} {d : Decl}
    (h : index.schema? b = some d) (hb : b ∉ expanding) :
    (untried index (b :: expanding)).length < (untried index expanding).length := by
  have hmem : b ∈ untried index expanding :=
    List.mem_filter.2 ⟨Text.Table.mem_names_of_get? h, by simpa using hb⟩
  have hsub : untried index (b :: expanding) = (untried index expanding).filter (· ≠ b) := by
    simp only [untried, List.filter_filter, List.mem_cons, not_or]
    congr 1
    funext x
    by_cases hx : x = b <;> simp [hx]
  rw [hsub]
  exact List.length_filter_lt_length_iff_exists.2 ⟨b, hmem, by simp⟩

variable (index : Index) (modules : Modules)

mutual

/-- The attributes of a schema literal, sorted by name; `expanding` holds the builders entered. -/
def resolveAttributes (expanding : List String) (path : Path) (elements : List Expr) :
    Outcome (List Attribute) :=
  (gather (elements.map fun x => resolveElement expanding path x)).map sortAttributes
termination_by ((untried index expanding).length, exprsWeight elements, 1)
decreasing_by
  apply Prod.Lex.right
  rcases Nat.lt_or_ge x.weight (exprsWeight elements) with h | h
  · exact Prod.Lex.left _ _ h
  · have : x.weight = exprsWeight elements := Nat.le_antisymm (weight_le_of_mem ‹_›) h
    rw [this]
    exact Prod.Lex.right _ (by decide)

def resolveElement (expanding : List String) (path : Path) (x : Expr) : Outcome Attribute :=
  match _hp : elementParts x with
  | .error e => .error [⟨path, e⟩]
  | .ok (name, value) =>
      match _hs : fieldSource value with
      | .error e => .error [⟨path ++ [name], e⟩]
      | .ok (.inline elements) => buildAttribute expanding (path ++ [name]) name elements
      | .ok (.builder b) => resolveBuilder expanding (path ++ [name]) name b
termination_by ((untried index expanding).length, x.weight, 0)
decreasing_by
  · apply Prod.Lex.right
    exact Prod.Lex.left _ _
      (Nat.lt_trans (weight_of_fieldSource _hs) (weight_of_elementParts _hp))
  · apply Prod.Lex.right
    exact Prod.Lex.left _ _ (Nat.lt_of_le_of_lt (Nat.zero_le _) (weight_of_elementParts _hp))

def resolveBuilder (expanding : List String) (path : Path) (name builder : String) :
    Outcome Attribute :=
  match _hd : index.schema? builder with
  | none => .error [⟨path, .unresolvedReference builder⟩]
  | some d =>
      if _hb : builder ∈ expanding then .error [⟨path, .cyclicReference builder⟩]
      else match builderLiteral modules d with
        | none => .error [⟨path, .schemaLiteralNotFound builder⟩]
        | some l => buildAttribute (builder :: expanding) path name l.elements
termination_by ((untried index expanding).length, 0, 0)
decreasing_by
  exact Prod.Lex.left _ _ (untried_cons_lt _hd _hb)

def buildAttribute (expanding : List String) (path : Path) (name : String)
    (elements : List Expr) : Outcome Attribute :=
  assemble path name elements
    (match _hn : nestedSchema elements with
    | .error e => .error [⟨path, e⟩]
    | .ok none => .ok []
    | .ok (some l) => resolveAttributes expanding path l.elements)
termination_by ((untried index expanding).length, exprsWeight elements, 0)
decreasing_by
  apply Prod.Lex.right
  exact Prod.Lex.left _ _ (weight_of_nestedSchema _hn)

end

theorem resolveAttributes_eq (expanding : List String) (path : Path) (elements : List Expr) :
    resolveAttributes index modules expanding path elements =
      (gather (elements.map (resolveElement index modules expanding path))).map
        sortAttributes := by
  rw [resolveAttributes]

theorem resolveElement_eq (expanding : List String) (path : Path) (x : Expr) :
    resolveElement index modules expanding path x =
      match elementParts x with
      | .error e => .error [⟨path, e⟩]
      | .ok (name, value) =>
          match fieldSource value with
          | .error e => .error [⟨path ++ [name], e⟩]
          | .ok (.inline elements) =>
              buildAttribute index modules expanding (path ++ [name]) name elements
          | .ok (.builder b) =>
              resolveBuilder index modules expanding (path ++ [name]) name b := by
  rw [resolveElement]
  split
  · next hp => rw [hp]
  · next hp =>
      rw [hp]
      dsimp only
      split <;> next hs => rw [hs]

theorem resolveBuilder_eq (expanding : List String) (path : Path) (name b : String) :
    resolveBuilder index modules expanding path name b =
      match index.schema? b with
      | none => .error [⟨path, .unresolvedReference b⟩]
      | some d =>
          if b ∈ expanding then .error [⟨path, .cyclicReference b⟩]
          else match builderLiteral modules d with
            | none => .error [⟨path, .schemaLiteralNotFound b⟩]
            | some l => buildAttribute index modules (b :: expanding) path name l.elements := by
  rw [resolveBuilder]
  split
  · next hd => rw [hd]
  · next hd =>
    rw [hd]
    dsimp only
    split
    · rfl
    · split <;> rfl

theorem buildAttribute_eq (expanding : List String) (path : Path) (name : String)
    (elements : List Expr) :
    buildAttribute index modules expanding path name elements =
      assemble path name elements
        (match nestedSchema elements with
        | .error e => .error [⟨path, e⟩]
        | .ok none => .ok []
        | .ok (some l) => resolveAttributes index modules expanding path l.elements) := by
  rw [buildAttribute]
  congr 1
  split <;> next hn => rw [hn]

theorem resolution_induct {P : List String → Path → List Expr → Prop}
    {Q : List String → Path → Expr → Prop} {R : List String → Path → String → String → Prop}
    {S : List String → Path → String → List Expr → Prop}
    (attributes : ∀ s path elements, (∀ x ∈ elements, Q s path x) → P s path elements)
    (element : ∀ s path x,
      (∀ name value elements, elementParts x = .ok (name, value) →
        fieldSource value = .ok (.inline elements) → S s (path ++ [name]) name elements) →
      (∀ name value b, elementParts x = .ok (name, value) →
        fieldSource value = .ok (.builder b) → R s (path ++ [name]) name b) → Q s path x)
    (builder : ∀ s path name b,
      (∀ d l, index.schema? b = some d → b ∉ s → builderLiteral modules d = some l →
        S (b :: s) path name l.elements) → R s path name b)
    (field : ∀ s path name elements,
      (∀ l, nestedSchema elements = .ok (some l) → P s path l.elements) →
        S s path name elements) :
    (∀ s path elements, P s path elements) ∧ (∀ s path x, Q s path x) ∧
      (∀ s path name b, R s path name b) ∧ ∀ s path name elements, S s path name elements := by
  refine resolveAttributes.mutual_induct index modules P Q R S attributes ?_ ?_ ?_ ?_ ?_ ?_ ?_ ?_ field
  · intro s path x e hp
    exact element s path x (by simp [hp]) (by simp [hp])
  · intro s path x name value hp e hs
    exact element s path x (by grind) (by grind)
  · intro s path x name value hp elements hs ih
    exact element s path x (by grind) (by grind)
  · intro s path x name value hp b hs ih
    exact element s path x (by grind) (by grind)
  · intro s path name b hd
    exact builder s path name b (by simp [hd])
  · intro s path name b d hd hb
    exact builder s path name b fun _ _ _ h => absurd hb h
  · intro s path name b d hd hb hl
    exact builder s path name b (by grind)
  · intro s path name b d hd hb l hl ih
    exact builder s path name b (by grind)

end ProviderManual.Schema
