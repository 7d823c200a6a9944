import ProviderManual.Source.Tree

/-! The parts that named nodes consist of, inside a function body. -/

namespace ProviderManual.Source

inductive Slot where
  | one (kinds : List NodeKind) (role : Option Role := none)
  | optional (kinds : List NodeKind) (role : Option Role := none)
  | many (kinds : List NodeKind) (role : Option Role := none)

def Slot.kinds : Slot → List NodeKind
  | one kinds _ | optional kinds _ | many kinds _ => kinds

namespace NodeKind

def terms : List NodeKind :=
  [.identifier, .blankIdentifier, .trueName, .falseName, .nil, .iota, .interpretedStringLiteral,
    .rawStringLiteral, .intLiteral, .floatLiteral, .imaginaryLiteral, .runeLiteral,
    .selectorExpression, .indexExpression, .sliceExpression, .callExpression,
    .typeAssertionExpression, .typeConversionExpression, .typeInstantiationExpression,
    .unaryExpression, .binaryExpression, .parenthesizedExpression, .compositeLiteral, .funcLiteral,
    .typeIdentifier, .qualifiedType, .pointerType, .sliceType, .arrayType, .implicitLengthArrayType,
    .mapType, .channelType, .functionType, .interfaceType, .structType, .genericType,
    .parenthesizedType, .negatedType]

def simpleStatements : List NodeKind :=
  [.expressionStatement, .sendStatement, .incStatement, .decStatement, .assignmentStatement,
    .shortVarDeclaration]

def statements : List NodeKind :=
  simpleStatements ++
    [.varDeclaration, .constDeclaration, .typeDeclaration, .returnStatement, .goStatement,
      .deferStatement, .ifStatement, .forStatement, .expressionSwitchStatement,
      .typeSwitchStatement, .selectStatement, .labeledStatement, .gotoStatement, .breakStatement,
      .continueStatement, .fallthroughStatement, .emptyStatement, .block]

def bodies : List NodeKind :=
  .statementList :: statements

def elements : List NodeKind :=
  [.literalElement, .keyedElement]

def declaredParameters : List NodeKind :=
  [.parameterDeclaration, .variadicParameterDeclaration]

/-- The slots of a kind's children. A leaf has none, nor has a kind that stands only at the top of a
file. -/
def rule : NodeKind → List Slot
  | .selectorExpression => [.one terms (some .operand), .one [.fieldIdentifier] (some .field)]
  | .qualifiedType =>
      [.one [.packageIdentifier] (some .package), .one [.typeIdentifier] (some .name)]
  | .unaryExpression => [.one terms (some .operand)]
  | .pointerType | .parenthesizedExpression | .sliceType | .implicitLengthArrayType
  | .channelType | .parenthesizedType | .negatedType | .variadicArgument => [.one terms]
  | .indexExpression | .typeAssertionExpression | .typeConversionExpression | .binaryExpression
  | .arrayType | .mapType => [.one terms, .one terms]
  | .sliceExpression | .typeInstantiationExpression => [.one terms, .many terms]
  | .compositeLiteral => [.one terms (some .type), .one [.literalValue] (some .body)]
  | .literalValue => [.many elements]
  | .literalElement => [.one (.literalValue :: terms) (some .plain)]
  | .keyedElement => [.one [.literalElement], .one [.literalElement]]
  | .callExpression =>
      [.one terms (some .function), .optional [.typeArguments] (some .typeArguments),
        .one [.argumentList] (some .arguments)]
  | .funcLiteral =>
      [.one [.parameterList] (some .parameters), .optional (.parameterList :: terms) (some .result),
        .one [.block] (some .body)]
  | .argumentList => [.many (.variadicArgument :: terms)]
  | .typeArguments => [.many [.typeElem]]
  | .expressionList | .typeElem | .typeConstraint => [.many terms]
  | .functionType => [.one [.parameterList], .optional (.parameterList :: terms)]
  | .genericType => [.one terms, .one [.typeArguments]]
  | .interfaceType => [.many [.methodElem, .typeElem]]
  | .methodElem =>
      [.one [.fieldIdentifier], .one [.parameterList], .optional (.parameterList :: terms)]
  | .structType => [.one [.fieldDeclarationList]]
  | .fieldDeclarationList => [.many [.fieldDeclaration]]
  | .fieldDeclaration =>
      [.many [.fieldIdentifier], .one terms,
        .optional [.interpretedStringLiteral, .rawStringLiteral]]
  | .parameterList => [.many declaredParameters]
  | .parameterDeclaration | .variadicParameterDeclaration => [.many [.identifier], .one terms]
  | .typeParameterList => [.many [.typeParameterDeclaration]]
  | .typeParameterDeclaration => [.many [.identifier], .one [.typeConstraint]]
  | .expressionStatement | .incStatement | .decStatement | .goStatement | .deferStatement =>
      [.one terms]
  | .sendStatement => [.one terms, .one terms]
  | .assignmentStatement | .shortVarDeclaration =>
      [.one [.expressionList] (some .left), .one [.expressionList] (some .right)]
  | .returnStatement => [.optional [.expressionList]]
  | .ifStatement =>
      [.optional simpleStatements, .one terms, .one [.block], .optional [.block, .ifStatement]]
  | .forStatement => [.optional (.forClause :: .rangeClause :: terms), .one [.block]]
  | .forClause => [.optional simpleStatements, .optional terms, .optional simpleStatements]
  | .rangeClause | .receiveStatement => [.optional [.expressionList], .one terms]
  | .expressionSwitchStatement =>
      [.optional simpleStatements, .optional terms, .many [.expressionCase, .defaultCase]]
  | .typeSwitchStatement =>
      [.optional simpleStatements, .optional [.expressionList], .one terms,
        .many [.typeCase, .defaultCase]]
  | .selectStatement => [.many [.communicationCase, .defaultCase]]
  | .expressionCase => [.one [.expressionList], .many bodies]
  | .typeCase => [.many terms, .many bodies]
  | .communicationCase => [.one [.sendStatement, .receiveStatement], .many bodies]
  | .defaultCase | .block => [.many bodies]
  | .statementList => [.many statements]
  | .labeledStatement => [.one [.labelName], .optional statements]
  | .gotoStatement | .breakStatement | .continueStatement => [.optional [.labelName]]
  | .varDeclaration => [.many [.varSpec, .varSpecList]]
  | .varSpecList => [.many [.varSpec]]
  | .varSpec =>
      [.many [.identifier] (some .name), .optional terms (some .type),
        .optional [.expressionList] (some .value)]
  | .constDeclaration => [.many [.constSpec]]
  | .constSpec => [.many [.identifier], .optional terms, .optional [.expressionList]]
  | .typeDeclaration => [.many [.typeSpec, .typeAlias]]
  | .typeSpec | .typeAlias =>
      [.one [.typeIdentifier], .optional [.typeParameterList], .one terms]
  | _ => []

def childKinds (k : NodeKind) : List NodeKind :=
  k.rule.flatMap Slot.kinds

end NodeKind

def bare (ts : List Tree) : List Tree :=
  ts.filter (·.kind ≠ .comment)

def standsFor (kinds : List NodeKind) (role : Option Role) (t : Tree) : Bool :=
  kinds.contains t.kind && role.all (t.role = ·)

def onceThen (test : Tree → Bool) (next : List Tree → Bool) : List Tree → Bool
  | [] => false
  | t :: ts => test t && next ts

def runThen (test : Tree → Bool) (next : List Tree → Bool) : List Tree → Bool
  | [] => next []
  | t :: ts => next (t :: ts) || (test t && runThen test next ts)

def fills : List Slot → List Tree → Bool
  | [], ts => ts.isEmpty
  | .one kinds role :: slots, ts => onceThen (standsFor kinds role) (fills slots) ts
  | .optional kinds role :: slots, ts =>
      fills slots ts || onceThen (standsFor kinds role) (fills slots) ts
  | .many kinds role :: slots, ts => runThen (standsFor kinds role) (fills slots) ts

mutual

def Tree.conforms : Tree → Bool
  | .node kind role _ children =>
      if kind = .comment then role = .plain && children.isEmpty
      else fills kind.rule (bare children) && allConform children

def allConform : List Tree → Bool
  | [] => true
  | t :: ts => t.conforms && allConform ts

end

theorem allConform_iff (ts : List Tree) : allConform ts = true ↔ ∀ t ∈ ts, t.conforms = true := by
  induction ts with
  | nil => simp [allConform]
  | cons t ts ih => simp [allConform, ih]

section Slots

variable {slots : List Slot} {kinds : List NodeKind} {role : Option Role} {t : Tree}
  {ts : List Tree}

theorem standsFor_iff :
    standsFor kinds role t = true ↔ t.kind ∈ kinds ∧ ∀ r ∈ role, t.role = r := by
  cases role <;> simp [standsFor]

theorem onceThen_iff {test : Tree → Bool} {next : List Tree → Bool} :
    onceThen test next ts = true ↔ ∃ u us, test u = true ∧ next us = true ∧ ts = u :: us := by
  cases ts with
  | nil => simp [onceThen]
  | cons t ts =>
      simp only [onceThen, Bool.and_eq_true, List.cons.injEq]
      constructor
      · exact fun ⟨ht, hts⟩ => ⟨t, ts, ht, hts, rfl, rfl⟩
      · rintro ⟨_, _, ht, hts, rfl, rfl⟩
        exact ⟨ht, hts⟩

theorem runThen_iff {test : Tree → Bool} {next : List Tree → Bool} :
    runThen test next ts = true ↔
      ∃ us vs, (∀ u ∈ us, test u = true) ∧ next vs = true ∧ ts = us ++ vs := by
  induction ts with
  | nil =>
      simp only [runThen]
      refine ⟨fun h => ⟨[], [], by simp, h, rfl⟩, ?_⟩
      rintro ⟨us, vs, _, hvs, h⟩
      obtain ⟨rfl, rfl⟩ := List.append_eq_nil_iff.mp h.symm
      exact hvs
  | cons t ts ih =>
      simp only [runThen, Bool.or_eq_true, Bool.and_eq_true, ih]
      constructor
      · rintro (h | ⟨ht, us, vs, hus, hvs, rfl⟩)
        · exact ⟨[], t :: ts, by simp, h, rfl⟩
        · exact ⟨t :: us, vs, by simpa [ht] using hus, hvs, rfl⟩
      · rintro ⟨us, vs, hus, hvs, h⟩
        cases us with
        | nil => exact .inl (by simpa [h] using hvs)
        | cons u us =>
            obtain ⟨rfl, rfl⟩ : t = u ∧ ts = us ++ vs := by simpa using h
            exact .inr ⟨hus t (by simp), us, vs, fun u hu => hus u (by simp [hu]), hvs, rfl⟩

theorem fills_nil : fills [] ts = true ↔ ts = [] := by
  simp [fills]

theorem fills_one : fills (.one kinds role :: slots) ts = true ↔
    ∃ u us, (u.kind ∈ kinds ∧ ∀ r ∈ role, u.role = r) ∧ fills slots us = true ∧ ts = u :: us := by
  simp only [fills, onceThen_iff, standsFor_iff]

theorem fills_optional : fills (.optional kinds role :: slots) ts = true ↔
    ∃ (o : Option Tree) (us : List Tree), (∀ u ∈ o, u.kind ∈ kinds ∧ ∀ r ∈ role, u.role = r) ∧
      fills slots us = true ∧ ts = o.toList ++ us := by
  simp only [fills, Bool.or_eq_true, onceThen_iff, standsFor_iff]
  constructor
  · rintro (h | ⟨u, us, hu, hus, rfl⟩)
    · exact ⟨none, ts, by simp, h, rfl⟩
    · exact ⟨some u, us, by simpa using hu, hus, rfl⟩
  · rintro ⟨o, us, hu, hus, rfl⟩
    cases o with
    | none => exact .inl hus
    | some u => exact .inr ⟨u, us, hu u rfl, hus, rfl⟩

theorem fills_many : fills (.many kinds role :: slots) ts = true ↔
    ∃ us vs, (∀ u ∈ us, u.kind ∈ kinds ∧ ∀ r ∈ role, u.role = r) ∧ fills slots vs = true ∧
      ts = us ++ vs := by
  simp only [fills, runThen_iff, standsFor_iff]

theorem kind_mem_of_fills {slots : List Slot} :
    ∀ {ts : List Tree}, fills slots ts = true → ∀ t ∈ ts, t.kind ∈ slots.flatMap Slot.kinds := by
  induction slots with
  | nil => simp [fills]
  | cons s slots ih =>
      intro ts h t ht
      rw [List.flatMap_cons, List.mem_append]
      cases s with
      | one kinds role =>
          obtain ⟨u, us, hu, hus, rfl⟩ := fills_one.mp h
          obtain rfl | ht := List.mem_cons.mp ht
          · exact .inl hu.1
          · exact .inr (ih hus t ht)
      | optional kinds role =>
          obtain ⟨o, us, hu, hus, rfl⟩ := fills_optional.mp h
          obtain ht | ht := List.mem_append.mp ht
          · exact .inl (hu t (Option.mem_toList.mp ht)).1
          · exact .inr (ih hus t ht)
      | many kinds role =>
          obtain ⟨us, vs, hus, hvs, rfl⟩ := fills_many.mp h
          obtain ht | ht := List.mem_append.mp ht
          · exact .inl (hus t ht).1
          · exact .inr (ih hvs t ht)

end Slots

theorem Tree.conforms_node {kind : NodeKind} {role : Role} {text : String} {cs : List Tree}
    (h : (Tree.node kind role text cs).conforms = true) (hk : kind ≠ .comment) :
    fills kind.rule (bare cs) = true ∧ ∀ c ∈ cs, c.conforms = true := by
  rw [Tree.conforms, if_neg hk, Bool.and_eq_true] at h
  exact ⟨h.1, (allConform_iff cs).mp h.2⟩

theorem Tree.role_of_comment {t : Tree} (h : t.conforms = true) (hk : t.kind = .comment) :
    t.role = .plain ∧ t.children = [] := by
  obtain ⟨k, r, text, cs⟩ := t
  obtain rfl : k = .comment := hk
  simpa [Tree.conforms, Tree.role, Tree.children] using h

end ProviderManual.Source
