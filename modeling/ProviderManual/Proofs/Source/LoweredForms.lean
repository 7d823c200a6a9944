import ProviderManual.Proofs.Source.Families

/-! One step of the lowering, form by form. -/

namespace ProviderManual.Source

namespace NodeKind

def leafForms : List NodeKind :=
  [.identifier, .fieldIdentifier, .packageIdentifier, .typeIdentifier, .blankIdentifier, .trueName,
    .falseName, .nil, .iota, .interpretedStringLiteral, .rawStringLiteral, .intLiteral,
    .floatLiteral, .imaginaryLiteral, .runeLiteral]

def exprForms : List NodeKind :=
  [.selectorExpression, .qualifiedType, .pointerType, .unaryExpression, .parenthesizedExpression,
    .literalElement, .compositeLiteral, .literalValue, .keyedElement, .callExpression, .funcLiteral]

def stmtForms : List NodeKind :=
  [.expressionStatement, .returnStatement, .shortVarDeclaration, .assignmentStatement, .varSpec,
    .varDeclaration, .varSpecList, .block, .statementList]

theorem isTerm_of_mem_childKinds {k : NodeKind} (hk : k.isStep = false) (hf : k ∉ exprForms) :
    ∀ k' ∈ k.childKinds, k'.isTerm = true := by
  revert hk hf
  cases k <;> decide

theorem isTerm_of_mem_leafForms {k : NodeKind} (h : k ∈ leafForms) : k.isTerm = true := by
  revert k
  decide

theorem isTerm_of_not_mem {k : NodeKind} (hk : k.isStep = false) (hf : k ∉ exprForms) :
    k.isTerm = true := by
  have hne : k ≠ .literalValue := by
    rintro rfl
    exact hf (by decide)
  simp [isTerm, hk, hne]

theorem hides_of_not_mem {k : NodeKind} (hk : k.isStep = false) (hf : k ∉ exprForms) (r : Role) :
    hides k r = false := by
  refine hides_eq_false ?_ ?_ ?_ r <;> rintro rfl
  · exact absurd hk (by decide)
  · exact hf (by decide)
  · exact hf (by decide)

theorem hides_of_isStep {k : NodeKind} (hk : k.isStep = true) (hf : k ∉ stmtForms) (r : Role) :
    hides k r = false := by
  refine hides_eq_false ?_ ?_ ?_ r <;> rintro rfl
  · exact hf (by decide)
  · exact absurd hk (by decide)
  · exact absurd hk (by decide)

theorem rule_of_mem_leafForms {k : NodeKind} (h : k ∈ leafForms) : k.rule = [] := by
  cases k <;> first | rfl | exact absurd h (by decide)

end NodeKind

namespace Tree

variable {kind : NodeKind} {role : Role} {text : String} {cs : List Tree}

theorem family?_of_mem_leafForms (h : kind ∈ NodeKind.leafForms) :
    (node kind role text cs).family? = none := by
  cases kind <;> first | rfl | exact absurd h (by decide)

theorem family?_of_not_mem (h : kind ∉ NodeKind.exprForms) :
    (node kind role text cs).family? = none := by
  cases kind <;> first | rfl | exact absurd (by decide) h

end Tree

section Forms

variable {kind : NodeKind} {role : Role} {text : String} {cs : List Tree}

theorem toExpr_leaf {t : Tree} (h : t.kind ∈ NodeKind.leafForms) :
    (∃ name, t.toExpr = .ident name) ∨ ∃ kind value, t.toExpr = .basicLit kind value := by
  obtain ⟨k, r, text, cs⟩ := t
  simp only [NodeKind.leafForms, Tree.kind, List.mem_cons, List.not_mem_nil, or_false] at h
  rcases h with rfl | rfl | rfl | rfl | rfl | rfl | rfl | rfl | rfl | rfl | rfl | rfl | rfl | rfl |
    rfl <;> first | exact .inl ⟨_, rfl⟩ | exact .inr ⟨_, _, rfl⟩

theorem toExpr_other {t : Tree} (hleaf : t.kind ∉ NodeKind.leafForms)
    (hf : t.kind ∉ NodeKind.exprForms) : t.toExpr = .other t.kind.name (exprsOf t.children) := by
  obtain ⟨k, r, text, cs⟩ := t
  rw [Tree.kind] at hleaf hf
  cases k <;> first | rfl | exact absurd (by decide) hleaf | exact absurd (by decide) hf

theorem toStmt_other (hf : kind ∉ NodeKind.stmtForms) :
    (Tree.node kind role text cs).toStmt = .other kind.name (exprsAmong cs) (stmtsAmong cs) := by
  cases kind <;> first | rfl | exact absurd (by decide) hf

theorem given_leaf {t : Tree} (h : t.kind ∈ NodeKind.leafForms) : SameLiterals t.given [] := by
  rw [given_of_isTerm (NodeKind.isTerm_of_mem_leafForms h)]
  obtain ⟨name, he⟩ | ⟨litKind, value, he⟩ := toExpr_leaf h <;> rw [he] <;>
    exact .drop rfl (.refl [])

theorem given_other {t : Tree} (hk : t.kind.isStep = false) (hleaf : t.kind ∉ NodeKind.leafForms)
    (hf : t.kind ∉ NodeKind.exprForms) :
    SameLiterals t.given (exprNodes (exprsOf t.children)) := by
  rw [given_of_isTerm (NodeKind.isTerm_of_not_mem hk hf), toExpr_other hleaf hf]
  exact .drop rfl (.refl _)

theorem splits_of_parts (hterm : kind.isTerm = true)
    (hfam : (Tree.node kind role text cs).family? = none) (hhides : ∀ r, hides kind r = false)
    (hs : SameLiterals (Tree.node kind role text cs).toExpr.nodes
      ((bare cs).flatMap Tree.given)) : (Tree.node kind role text cs).Splits := by
  refine .of_none hfam ?_
  rw [shown_eq hhides, given_of_isTerm (t := .node kind role text cs) hterm]
  exact hs

theorem splits_of_steps (hstep : kind.isStep = true) (hhides : ∀ r, hides kind r = false)
    (hs : SameLiterals (Tree.node kind role text cs).toStmt.nodes
      ((bare cs).flatMap Tree.given)) : (Tree.node kind role text cs).Splits := by
  refine .of_none (Tree.family?_of_isStep hstep) ?_
  rw [shown_eq hhides, given_of_isStep (t := .node kind role text cs) hstep]
  exact hs

theorem splits_leaf (h : kind ∈ NodeKind.leafForms) (hfills : fills kind.rule (bare cs) = true) :
    (Tree.node kind role text cs).Splits := by
  rw [NodeKind.rule_of_mem_leafForms h, fills_nil] at hfills
  refine .of_none (Tree.family?_of_mem_leafForms h) ?_
  have hshown : shown kind cs = [] := by simp [shown, hfills]
  exact hshown ▸ given_leaf h

theorem splits_other (hk : kind.isStep = false) (hleaf : kind ∉ NodeKind.leafForms)
    (hf : kind ∉ NodeKind.exprForms) (hfills : fills kind.rule (bare cs) = true) :
    (Tree.node kind role text cs).Splits := by
  have hterms : ∀ c ∈ bare cs, c.kind.isTerm = true := fun c hc =>
    NodeKind.isTerm_of_mem_childKinds hk hf c.kind (kind_mem_of_fills hfills c hc)
  have hgiven := given_other (t := .node kind role text cs) hk hleaf hf
  rw [Tree.children, exprsOf_eq, exprNodes_map hterms] at hgiven
  refine .of_none (Tree.family?_of_not_mem hf) ?_
  rw [shown_eq (NodeKind.hides_of_not_mem hk hf)]
  exact hgiven

theorem splits_otherStmt (hk : kind.isStep = true) (hf : kind ∉ NodeKind.stmtForms)
    (hfills : fills kind.rule (bare cs) = true) : (Tree.node kind role text cs).Splits := by
  have hkinds : ∀ c ∈ bare cs, c.kind.isStatement = c.kind.isStep ∧ c.kind ≠ .literalValue :=
    fun c hc => NodeKind.isStatement_eq_of_mem_childKinds hk c.kind
      (kind_mem_of_fills hfills c hc)
  have hterms : ∀ c ∈ (bare cs).filter (!·.kind.isStatement), c.kind.isTerm = true := by
    intro c hc
    obtain ⟨hc, hs⟩ := List.mem_filter.mp hc
    simpa [NodeKind.isTerm, hkinds c hc] using hs
  have hsteps : ∀ c ∈ (bare cs).filter (·.kind.isStatement), c.kind.isStep = true := by
    intro c hc
    obtain ⟨hc, hs⟩ := List.mem_filter.mp hc
    simpa [hkinds c hc] using hs
  refine splits_of_steps hk (NodeKind.hides_of_isStep hk hf) ?_
  rw [toStmt_other hf, Stmt.nodes, exprsAmong_eq, stmtsAmong_eq, exprNodes_map hterms,
    stmtNodes_map hsteps, ← List.flatMap_append]
  exact .drop rfl (.of_perm (List.Perm.flatMap_right _
    (List.perm_append_comm.trans (List.filter_append_perm _ (bare cs)))))

end Forms

section ExprForms

variable {role : Role} {text : String} {cs : List Tree}

theorem given_of_mem_terms {t : Tree} (h : t.kind ∈ NodeKind.terms) : t.given = t.toExpr.nodes :=
  given_of_isTerm (NodeKind.isTerm_of_mem_terms h)

theorem given_braces {t : Tree} (hk : t.kind = .literalValue) (hr : t.role = .body) :
    t.given = exprNodes (exprsOf t.children) := by
  rw [Tree.given, if_neg (by rw [hk]; decide), if_pos ⟨hk, hr⟩]

theorem given_element {t : Tree} (hk : t.kind = .literalValue) (hr : t.role ≠ .body) :
    t.given = t.toExpr.nodes := by
  rw [Tree.given, if_neg (by rw [hk]; decide), if_neg fun h => hr h.2]

theorem splits_around {kind : NodeKind} {x : Tree} (hterm : kind.isTerm = true)
    (hfam : (Tree.node kind role text cs).family? = none) (hhides : ∀ r, hides kind r = false)
    (hbare : bare cs = [x])
    (hs : SameLiterals (Tree.node kind role text cs).toExpr.nodes x.given) :
    (Tree.node kind role text cs).Splits := by
  refine splits_of_parts hterm hfam hhides ?_
  rw [hbare, List.flatMap_singleton]
  exact hs

theorem firstExpr_of_bare {x : Tree} (hbare : bare cs = [x]) : firstExpr cs = some x.toExpr := by
  rw [firstExpr_eq, hbare, List.head?_cons, Option.map_some]

theorem splits_pointerType (hfills : fills (NodeKind.rule .pointerType) (bare cs) = true) :
    (Tree.node .pointerType role text cs).Splits := by
  obtain ⟨x, _, ⟨hx, -⟩, hrest, hbare⟩ := fills_one.mp hfills
  obtain rfl := fills_nil.mp hrest
  have he : (Tree.node .pointerType role text cs).toExpr = .star x.toExpr := by
    -- Evaluation stops at the case split on the first part, which is known.
    conv => lhs; whnf
    simp only [firstExpr_of_bare hbare]
  refine splits_around rfl rfl (fun _ => rfl) hbare ?_
  rw [he, given_of_mem_terms hx]
  exact .drop rfl (.refl _)

theorem splits_parenthesizedExpression
    (hfills : fills (NodeKind.rule .parenthesizedExpression) (bare cs) = true) :
    (Tree.node .parenthesizedExpression role text cs).Splits := by
  obtain ⟨x, _, ⟨hx, -⟩, hrest, hbare⟩ := fills_one.mp hfills
  obtain rfl := fills_nil.mp hrest
  have he : (Tree.node .parenthesizedExpression role text cs).toExpr = x.toExpr := by
    conv => lhs; whnf
    simp only [firstExpr_of_bare hbare]
  refine splits_around rfl rfl (fun _ => rfl) hbare ?_
  rw [he, given_of_mem_terms hx]
  exact .refl _

theorem splits_literalElement (hfills : fills (NodeKind.rule .literalElement) (bare cs) = true) :
    (Tree.node .literalElement role text cs).Splits := by
  obtain ⟨x, _, ⟨hx, hxrole⟩, hrest, hbare⟩ := fills_one.mp hfills
  obtain rfl := fills_nil.mp hrest
  have he : (Tree.node .literalElement role text cs).toExpr = x.toExpr := by
    conv => lhs; whnf
    simp only [firstExpr_of_bare hbare]
  have hgiven : x.given = x.toExpr.nodes := by
    obtain hx | hx := List.mem_cons.mp hx
    · exact given_element hx (by rw [hxrole _ rfl]; decide)
    · exact given_of_mem_terms hx
  refine splits_around rfl rfl (fun _ => rfl) hbare ?_
  rw [he, hgiven]
  exact .refl _

theorem exprIn_of_bare (hplain : ∀ c ∈ cs, c.kind = .comment → c.role = .plain) {r : Role}
    (hr : r ≠ .plain) {x : Tree} {parts : List Tree} (hbare : bare cs = x :: parts)
    (hx : x.role = r) : exprIn r cs = some x.toExpr := by
  rw [exprIn_eq, ← find?_bare hplain hr, hbare, List.find?_cons_of_pos (by simpa using hx),
    Option.map_some]

theorem splits_unaryExpression (hplain : ∀ c ∈ cs, c.kind = .comment → c.role = .plain)
    (hfills : fills (NodeKind.rule .unaryExpression) (bare cs) = true) :
    (Tree.node .unaryExpression role text cs).Splits := by
  obtain ⟨x, _, ⟨hx, hxrole⟩, hrest, hbare⟩ := fills_one.mp hfills
  obtain rfl := fills_nil.mp hrest
  have he : (Tree.node .unaryExpression role text cs).toExpr = .unary text x.toExpr := by
    conv => lhs; whnf
    simp only [exprIn_of_bare hplain (by decide) hbare (hxrole _ rfl)]
  refine splits_around rfl rfl (fun _ => rfl) hbare ?_
  rw [he, given_of_mem_terms hx]
  exact .drop rfl (.refl _)

theorem splits_selector {kind : NodeKind} {x name : Tree} {sel : String} (hterm : kind.isTerm = true)
    (hfam : (Tree.node kind role text cs).family? = none) (hhides : ∀ r, hides kind r = false)
    (hbare : bare cs = [x, name]) (hx : x.kind.isTerm = true)
    (hname : name.kind ∈ NodeKind.leafForms)
    (he : (Tree.node kind role text cs).toExpr = .selector x.toExpr sel) :
    (Tree.node kind role text cs).Splits := by
  refine splits_of_parts hterm hfam hhides ?_
  rw [he, Expr.nodes, hbare, List.flatMap_cons, List.flatMap_singleton, given_of_isTerm hx]
  exact .drop rfl (.append_nothing (given_leaf hname))

theorem splits_selectorExpression (hplain : ∀ c ∈ cs, c.kind = .comment → c.role = .plain)
    (hfills : fills (NodeKind.rule .selectorExpression) (bare cs) = true) :
    (Tree.node .selectorExpression role text cs).Splits := by
  obtain ⟨x, _, ⟨hx, hxrole⟩, hrest, hbare⟩ := fills_one.mp hfills
  obtain ⟨field, _, ⟨hfield, -⟩, hlast, rfl⟩ := fills_one.mp hrest
  obtain rfl := fills_nil.mp hlast
  have he : (Tree.node .selectorExpression role text cs).toExpr =
      .selector x.toExpr (textIn .field cs) := by
    conv => lhs; whnf
    simp only [exprIn_of_bare hplain (by decide) hbare (hxrole _ rfl)]
  exact splits_selector rfl rfl (fun _ => rfl) hbare (NodeKind.isTerm_of_mem_terms hx)
    (by rw [List.mem_singleton.mp hfield]; decide) he

theorem splits_qualifiedType (hplain : ∀ c ∈ cs, c.kind = .comment → c.role = .plain)
    (hfills : fills (NodeKind.rule .qualifiedType) (bare cs) = true) :
    (Tree.node .qualifiedType role text cs).Splits := by
  obtain ⟨x, _, ⟨hx, hxrole⟩, hrest, hbare⟩ := fills_one.mp hfills
  obtain ⟨name, _, ⟨hname, -⟩, hlast, rfl⟩ := fills_one.mp hrest
  obtain rfl := fills_nil.mp hlast
  have he : (Tree.node .qualifiedType role text cs).toExpr = .selector x.toExpr (textIn .name cs) := by
    conv => lhs; whnf
    simp only [exprIn_of_bare hplain (by decide) hbare (hxrole _ rfl)]
  exact splits_selector rfl rfl (fun _ => rfl) hbare (by rw [List.mem_singleton.mp hx]; rfl)
    (by rw [List.mem_singleton.mp hname]; decide) he

theorem splits_compositeLiteral (hplain : ∀ c ∈ cs, c.kind = .comment → c.role = .plain)
    (hfills : fills (NodeKind.rule .compositeLiteral) (bare cs) = true) :
    (Tree.node .compositeLiteral role text cs).Splits := by
  obtain ⟨type, _, ⟨ht, htrole⟩, hrest, hbare⟩ := fills_one.mp hfills
  obtain ⟨body, _, ⟨hb, hbrole⟩, hlast, rfl⟩ := fills_one.mp hrest
  obtain rfl := fills_nil.mp hlast
  have htrole := htrole _ rfl
  have hbrole := hbrole _ rfl
  have hparts : partsIn .body cs = exprsOf body.children := by
    simp [partsIn_eq, ← find?_bare hplain, hbare, htrole, hbrole]
  have he : (Tree.node .compositeLiteral role text cs).toExpr =
      .composite (exprIn .type cs) (partsIn .body cs) := rfl
  rw [exprIn_of_bare hplain (by decide) hbare htrole, hparts] at he
  refine .of_some rfl (by rw [he]; rfl) ?_
  rw [given_of_isTerm (t := .node .compositeLiteral role text cs) rfl, he, Expr.nodes,
    shown_eq fun _ => rfl, hbare, List.flatMap_cons, List.flatMap_singleton,
    given_of_mem_terms ht, given_braces (List.mem_singleton.mp hb) hbrole]
  exact .refl _

theorem splits_literalValue (hfills : fills (NodeKind.rule .literalValue) (bare cs) = true) :
    (Tree.node .literalValue role text cs).Splits := by
  have hkinds : ∀ k ∈ NodeKind.childKinds .literalValue, k.isTerm = true := by decide
  have hterms : ∀ c ∈ bare cs, c.kind.isTerm = true := fun c hc =>
    hkinds c.kind (kind_mem_of_fills hfills c hc)
  have hshown : shown .literalValue cs = bare cs := shown_eq fun _ => rfl
  have hparts : exprNodes (exprsOf cs) = (shown .literalValue cs).flatMap Tree.given := by
    rw [exprsOf_eq, exprNodes_map hterms, hshown]
  by_cases hrole : role = .body
  · refine .of_none (if_pos hrole) ?_
    rw [given_braces (t := .node .literalValue role text cs) rfl hrole, ← hparts]
    exact .refl _
  · refine .of_some (if_neg hrole) rfl ?_
    rw [given_element (t := .node .literalValue role text cs) rfl hrole, ← hparts]
    exact .refl _

theorem splits_keyedElement (hfills : fills (NodeKind.rule .keyedElement) (bare cs) = true) :
    (Tree.node .keyedElement role text cs).Splits := by
  obtain ⟨key, _, ⟨hkey, -⟩, hrest, hbare⟩ := fills_one.mp hfills
  obtain ⟨value, _, ⟨hvalue, -⟩, hlast, rfl⟩ := fills_one.mp hrest
  obtain rfl := fills_nil.mp hlast
  have hparts : exprsOf cs = [key.toExpr, value.toExpr] := by
    rw [exprsOf_eq, hbare, List.map_cons, List.map_singleton]
  have he : (Tree.node .keyedElement role text cs).toExpr = .keyValue key.toExpr value.toExpr := by
    conv => lhs; whnf
    simp only [hparts]
  refine .of_some rfl (by rw [he]; rfl) ?_
  rw [given_of_isTerm (t := .node .keyedElement role text cs) rfl, he, Expr.nodes,
    shown_eq fun _ => rfl, hbare, List.flatMap_cons, List.flatMap_singleton,
    given_of_isTerm (t := key) (by rw [List.mem_singleton.mp hkey]; rfl),
    given_of_isTerm (t := value) (by rw [List.mem_singleton.mp hvalue]; rfl)]
  exact .refl _

theorem splits_callExpression (hplain : ∀ c ∈ cs, c.kind = .comment → c.role = .plain)
    (hfills : fills (NodeKind.rule .callExpression) (bare cs) = true) :
    (Tree.node .callExpression role text cs).Splits := by
  obtain ⟨callee, _, ⟨hc, hcrole⟩, hrest, hbare⟩ := fills_one.mp hfills
  obtain ⟨types, _, ht, htail, rfl⟩ := fills_optional.mp hrest
  obtain ⟨args, _, ⟨ha, harole⟩, hlast, rfl⟩ := fills_one.mp htail
  obtain rfl := fills_nil.mp hlast
  have hcrole := hcrole _ rfl
  have harole := harole _ rfl
  have htrole : ∀ t ∈ types, t.role = .typeArguments := fun t h => (ht t h).2 _ rfl
  have ha : args.kind = .argumentList := List.mem_singleton.mp ha
  have hparts : partsIn .arguments cs = exprsOf args.children := by
    rw [partsIn_eq, ← find?_bare hplain (by decide), hbare]
    cases types with
    | none => simp [hcrole, harole]
    | some t => simp [hcrole, harole, htrole t rfl]
  have he : (Tree.node .callExpression role text cs).toExpr =
      .call callee.toExpr (exprsOf args.children) := by
    conv => lhs; whnf
    simp only [exprIn_of_bare hplain (by decide) hbare hcrole, hparts]
  have hshown : shown .callExpression cs = [callee, args] := by
    rw [shown, hbare]
    cases types with
    | none => simp [hides, hcrole, harole]
    | some t => simp [hides, hcrole, harole, htrole t rfl]
  have hgiven : SameLiterals args.given (exprNodes (exprsOf args.children)) :=
    given_other (by rw [ha]; rfl) (by rw [ha]; decide) (by rw [ha]; decide)
  refine .of_some rfl (by rw [he]; rfl) ?_
  rw [given_of_isTerm (t := .node .callExpression role text cs) rfl, he, Expr.nodes, hshown,
    List.flatMap_cons, List.flatMap_singleton, given_of_mem_terms hc]
  exact .cons (.append (.refl _) hgiven.symm)

theorem given_block {t : Tree} (h : t.kind = .block) :
    SameLiterals t.given (stmtNodes (blockOf t.children)) := by
  rw [given_of_isStep (h ▸ rfl)]
  obtain ⟨k, r, text, cs⟩ := t
  obtain rfl : k = .block := h
  exact .drop rfl (.refl _)

theorem splits_funcLiteral (hplain : ∀ c ∈ cs, c.kind = .comment → c.role = .plain)
    (hfills : fills (NodeKind.rule .funcLiteral) (bare cs) = true) :
    (Tree.node .funcLiteral role text cs).Splits := by
  obtain ⟨parameters, _, ⟨-, hprole⟩, hrest, hbare⟩ := fills_one.mp hfills
  obtain ⟨result, _, hr, htail, rfl⟩ := fills_optional.mp hrest
  obtain ⟨body, _, ⟨hb, hbrole⟩, hlast, rfl⟩ := fills_one.mp htail
  obtain rfl := fills_nil.mp hlast
  have hprole := hprole _ rfl
  have hbrole := hbrole _ rfl
  have hrrole : ∀ t ∈ result, t.role = .result := fun t h => (hr t h).2 _ rfl
  have hparts : blockIn .body cs = blockOf body.children := by
    rw [blockIn_eq, ← find?_bare hplain (by decide), hbare]
    cases result with
    | none => simp [hprole, hbrole]
    | some t => simp [hprole, hbrole, hrrole t rfl]
  have hshown : shown .funcLiteral cs = [body] := by
    rw [shown, hbare]
    cases result with
    | none => simp [hides, hprole, hbrole]
    | some t => simp [hides, hprole, hbrole, hrrole t rfl]
  have he : (Tree.node .funcLiteral role text cs).toExpr = .funcLit (blockIn .body cs) := rfl
  refine .of_none rfl ?_
  rw [given_of_isTerm (t := .node .funcLiteral role text cs) rfl, he, hparts, Expr.nodes, hshown,
    List.flatMap_singleton]
  exact .drop rfl (.symm (given_block (List.mem_singleton.mp hb)))

end ExprForms

section StmtForms

variable {role : Role} {text : String} {cs : List Tree}

theorem splits_expressionStatement
    (hfills : fills (NodeKind.rule .expressionStatement) (bare cs) = true) :
    (Tree.node .expressionStatement role text cs).Splits := by
  obtain ⟨x, _, ⟨hx, -⟩, hrest, hbare⟩ := fills_one.mp hfills
  obtain rfl := fills_nil.mp hrest
  have hs : (Tree.node .expressionStatement role text cs).toStmt = .expr x.toExpr := by
    simp only [Tree.toStmt, firstExpr_of_bare hbare]
  refine splits_of_steps rfl (fun _ => rfl) ?_
  rw [hs, Stmt.nodes, hbare, List.flatMap_singleton, given_of_mem_terms hx]
  exact .drop rfl (.refl _)

theorem given_expressionList {t : Tree} (h : t.kind = .expressionList) :
    SameLiterals t.given (exprNodes (t.members.map Tree.toExpr)) := by
  rw [Tree.members, if_pos h, ← exprsOf_eq]
  exact given_other (by rw [h]; rfl) (by rw [h]; decide) (by rw [h]; decide)

theorem given_values {values : Option Tree} (h : ∀ t ∈ values, t.kind = .expressionList) :
    SameLiterals (exprNodes ((values.toList.flatMap Tree.members).map Tree.toExpr))
      (values.toList.flatMap Tree.given) := by
  cases values with
  | none => exact .refl _
  | some t =>
      rw [Option.toList_some, List.flatMap_singleton, List.flatMap_singleton]
      exact (given_expressionList (h t rfl)).symm

theorem splits_returnStatement
    (hfills : fills (NodeKind.rule .returnStatement) (bare cs) = true) :
    (Tree.node .returnStatement role text cs).Splits := by
  obtain ⟨values, _, hv, hrest, hbare⟩ := fills_optional.mp hfills
  obtain rfl := fills_nil.mp hrest
  rw [List.append_nil] at hbare
  refine splits_of_steps rfl (fun _ => rfl) (.drop rfl ?_)
  rw [spread_eq, hbare]
  exact given_values fun t ht => List.mem_singleton.mp (hv t ht).1

theorem listIn_bare (hplain : ∀ c ∈ cs, c.kind = .comment → c.role = .plain) {r : Role}
    (hr : r ≠ .plain) :
    listIn r cs =
      ((bare cs).find? (·.role = r)).elim [] fun t => t.members.map Tree.toExpr := by
  rw [listIn_eq, find?_bare hplain hr]

theorem splits_assignment (hplain : ∀ c ∈ cs, c.kind = .comment → c.role = .plain)
    {kind : NodeKind} (hstep : kind.isStep = true) (hhides : ∀ r, hides kind r = false)
    (hs : (Tree.node kind role text cs).toStmt = .assign (listIn .left cs) (listIn .right cs))
    (hfills : fills [.one [.expressionList] (some .left), .one [.expressionList] (some .right)]
      (bare cs) = true) : (Tree.node kind role text cs).Splits := by
  obtain ⟨left, _, ⟨hl, hlrole⟩, hrest, hbare⟩ := fills_one.mp hfills
  obtain ⟨right, _, ⟨hr, hrrole⟩, hlast, rfl⟩ := fills_one.mp hrest
  obtain rfl := fills_nil.mp hlast
  have hlrole := hlrole _ rfl
  have hrrole := hrrole _ rfl
  have hleft : listIn .left cs = left.members.map Tree.toExpr := by
    rw [listIn_bare hplain (by decide), hbare, List.find?_cons_of_pos (by simp [hlrole])]
    rfl
  have hright : listIn .right cs = right.members.map Tree.toExpr := by
    rw [listIn_bare hplain (by decide), hbare, List.find?_cons_of_neg (by simp [hlrole]),
      List.find?_cons_of_pos (by simp [hrrole])]
    rfl
  refine splits_of_steps hstep hhides ?_
  rw [hs, hleft, hright, hbare, Stmt.nodes, List.flatMap_cons, List.flatMap_singleton]
  exact .drop rfl (.append (given_expressionList (List.mem_singleton.mp hl)).symm
    (given_expressionList (List.mem_singleton.mp hr)).symm)

theorem filter_of_role {r : Role} {ts : List Tree} (h : ∀ t ∈ ts, t.role = r)
    {test : Role → Bool} : ts.filter (test ·.role) = if test r then ts else [] := by
  split
  · exact List.filter_eq_self.mpr fun t ht => by rwa [h t ht]
  · exact List.filter_eq_nil_iff.mpr fun t ht => by rwa [h t ht]

theorem splits_varSpec (hplain : ∀ c ∈ cs, c.kind = .comment → c.role = .plain)
    (hfills : fills (NodeKind.rule .varSpec) (bare cs) = true) :
    (Tree.node .varSpec role text cs).Splits := by
  obtain ⟨names, _, hn, hrest, hbare⟩ := fills_many.mp hfills
  obtain ⟨type, _, ht, htail, rfl⟩ := fills_optional.mp hrest
  obtain ⟨values, _, hv, hlast, rfl⟩ := fills_optional.mp htail
  obtain rfl := fills_nil.mp hlast
  rw [List.append_nil] at hbare
  -- Each role picks the parts of one slot.
  have hpick : ∀ test : Role → Bool, (bare cs).filter (test ·.role) =
      (if test .name then names else []) ++ (if test .type then type.toList else []) ++
        (if test .value then values.toList else []) := by
    intro test
    rw [hbare, List.filter_append, List.filter_append, List.append_assoc,
      filter_of_role fun u hu => (hn u hu).2 _ rfl,
      filter_of_role fun u hu => (ht u (Option.mem_toList.mp hu)).2 _ rfl,
      filter_of_role fun u hu => (hv u (Option.mem_toList.mp hu)).2 _ rfl]
  have hleft : allIn .name cs = names.map Tree.toExpr := by
    rw [allIn_eq, ← filter_bare hplain (by decide), hpick (· = .name)]
    simp
  have hright : listIn .value cs = (values.toList.flatMap Tree.members).map Tree.toExpr := by
    rw [listIn_bare hplain (by decide), ← List.head?_filter, hpick (· = .value)]
    cases values <;> simp
  have hshown : shown .varSpec cs = names ++ values.toList := by
    rw [shown, hpick (!hides .varSpec ·)]
    simp [hides]
  have hterms : ∀ c ∈ names, c.kind.isTerm = true := fun c hc => by
    rw [List.mem_singleton.mp (hn c hc).1]
    rfl
  have hs : (Tree.node .varSpec role text cs).toStmt =
      .assign (allIn .name cs) (listIn .value cs) := rfl
  refine .of_none rfl ?_
  rw [given_of_isStep (t := .node .varSpec role text cs) rfl, hs, hleft, hright, hshown,
    Stmt.nodes, exprNodes_map hterms, List.flatMap_append]
  exact .drop rfl (.append (.refl _) (given_values fun t ht => List.mem_singleton.mp (hv t ht).1))

theorem splits_stmtsOf {kind : NodeKind} (hstep : kind.isStep = true)
    (hhides : ∀ r, hides kind r = false)
    (hs : (Tree.node kind role text cs).toStmt = .block (stmtsOf cs))
    (hkinds : ∀ k ∈ kind.childKinds, k.isStep = true)
    (hfills : fills kind.rule (bare cs) = true) : (Tree.node kind role text cs).Splits := by
  have hsteps : ∀ c ∈ bare cs, c.kind.isStep = true := fun c hc =>
    hkinds c.kind (kind_mem_of_fills hfills c hc)
  refine splits_of_steps hstep hhides ?_
  rw [hs, Stmt.nodes, stmtsOf_eq, stmtNodes_map hsteps]
  exact .drop rfl (.refl _)

theorem flatMap_steps {ts : List Tree} (h : ∀ t ∈ ts, t.kind ≠ .statementList) :
    ts.flatMap Tree.steps = ts := by
  induction ts with
  | nil => rfl
  | cons t ts ih =>
      rw [List.flatMap_cons, Tree.steps, if_neg (h t List.mem_cons_self),
        ih fun u hu => h u (List.mem_cons_of_mem t hu)]
      rfl

theorem given_steps {t : Tree} (hconf : t.conforms = true) (hk : t.kind ∈ NodeKind.bodies) :
    SameLiterals t.given (stmtNodes (t.steps.map Tree.toStmt)) := by
  rw [given_of_isStep (NodeKind.isStep_of_mem_bodies hk)]
  obtain ⟨k, r, text, cs⟩ := t
  by_cases h : k = .statementList
  · subst h
    have hflat : ∀ c ∈ bare cs, c.kind ≠ .statementList := by
      intro c hc hck
      have hmem := kind_mem_of_fills (Tree.conforms_node hconf (by decide)).1 c hc
      rw [hck] at hmem
      exact absurd hmem (by decide)
    have hs : (Tree.node .statementList r text cs).toStmt = .block (blockOf cs) := rfl
    rw [hs, Stmt.nodes, blockOf_eq, flatMap_steps hflat]
    exact .drop rfl (.refl _)
  · have hsteps : (Tree.node k r text cs).steps = [.node k r text cs] := if_neg h
    rw [hsteps, List.map_singleton, stmtNodes, stmtNodes, List.append_nil]
    exact .refl _

theorem stmtNodes_append (xs ys : List Stmt) :
    stmtNodes (xs ++ ys) = stmtNodes xs ++ stmtNodes ys := by
  induction xs with
  | nil => rfl
  | cons x xs ih => rw [List.cons_append, stmtNodes, stmtNodes, ih, List.append_assoc]

theorem stmtNodes_flatMap (f : Tree → List Tree) (ts : List Tree) :
    stmtNodes ((ts.flatMap f).map Tree.toStmt) =
      ts.flatMap fun t => stmtNodes ((f t).map Tree.toStmt) := by
  induction ts with
  | nil => rfl
  | cons t ts ih =>
      rw [List.flatMap_cons, List.map_append, stmtNodes_append, ih, List.flatMap_cons]

theorem splits_blockOf {kind : NodeKind} (hstep : kind.isStep = true)
    (hhides : ∀ r, hides kind r = false)
    (hs : (Tree.node kind role text cs).toStmt = .block (blockOf cs))
    (hkinds : ∀ k ∈ kind.childKinds, k ∈ NodeKind.bodies)
    (hfills : fills kind.rule (bare cs) = true) (hconf : ∀ c ∈ cs, c.conforms = true) :
    (Tree.node kind role text cs).Splits := by
  refine splits_of_steps hstep hhides ?_
  rw [hs, Stmt.nodes, blockOf_eq, stmtNodes_flatMap]
  refine .drop rfl (.flatMap fun c hc => .symm (given_steps ?_ ?_))
  · exact hconf c (List.mem_filter.mp hc).1
  · exact hkinds c.kind (kind_mem_of_fills hfills c hc)

end StmtForms

theorem Tree.splits {t : Tree} (h : t.conforms = true) (hk : t.kind ≠ .comment) : t.Splits := by
  obtain ⟨kind, role, text, cs⟩ := t
  obtain ⟨hfills, hconf⟩ := Tree.conforms_node h hk
  have hplain : ∀ c ∈ cs, c.kind = .comment → c.role = .plain := fun c hc hck =>
    (Tree.role_of_comment (hconf c hc) hck).1
  cases hstep : kind.isStep with
  | true =>
      by_cases hf : kind ∈ NodeKind.stmtForms
      · simp only [NodeKind.stmtForms, List.mem_cons, List.not_mem_nil, or_false] at hf
        obtain rfl | rfl | rfl | rfl | rfl | rfl | rfl | rfl | rfl := hf
        · exact splits_expressionStatement hfills
        · exact splits_returnStatement hfills
        · exact splits_assignment hplain rfl (fun _ => rfl) rfl hfills
        · exact splits_assignment hplain rfl (fun _ => rfl) rfl hfills
        · exact splits_varSpec hplain hfills
        · exact splits_stmtsOf rfl (fun _ => rfl) rfl (by decide) hfills
        · exact splits_stmtsOf rfl (fun _ => rfl) rfl (by decide) hfills
        · exact splits_blockOf rfl (fun _ => rfl) rfl (by decide) hfills hconf
        · exact splits_blockOf rfl (fun _ => rfl) rfl (by decide) hfills hconf
      · exact splits_otherStmt hstep hf hfills
  | false =>
      by_cases hleaf : kind ∈ NodeKind.leafForms
      · exact splits_leaf hleaf hfills
      by_cases hf : kind ∈ NodeKind.exprForms
      · simp only [NodeKind.exprForms, List.mem_cons, List.not_mem_nil, or_false] at hf
        obtain rfl | rfl | rfl | rfl | rfl | rfl | rfl | rfl | rfl | rfl | rfl := hf
        · exact splits_selectorExpression hplain hfills
        · exact splits_qualifiedType hplain hfills
        · exact splits_pointerType hfills
        · exact splits_unaryExpression hplain hfills
        · exact splits_parenthesizedExpression hfills
        · exact splits_literalElement hfills
        · exact splits_compositeLiteral hplain hfills
        · exact splits_literalValue hfills
        · exact splits_keyedElement hfills
        · exact splits_callExpression hplain hfills
        · exact splits_funcLiteral hplain hfills
      · exact splits_other hstep hleaf hf hfills

end ProviderManual.Source
