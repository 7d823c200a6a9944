import ProviderManual.Proofs.Manual.PageItems
import ProviderManual.Proofs.Manual.StandardTemplate
import ProviderManual.Proofs.Template.Writing

/-! The page that the standard template gives is the layout of the resource. -/

namespace ProviderManual.Manual

open ProviderManual.Template

section Summary

theorem firstLine_of_not_mem {cs : List Char} (h : '\n' ∉ cs) : firstLine cs = cs := by
  induction cs with
  | nil => rfl
  | cons c cs ih =>
      obtain ⟨hc, hcs⟩ := List.ne_and_not_mem_of_not_mem_cons h
      rw [firstLine, ih hcs]
      · exact fun h => hc h.symm
      · rintro rest - rfl
        exact hcs List.mem_cons_self

theorem firstLine_append {line : List Char} (rest : List Char) (h : '\n' ∉ line) :
    firstLine (line ++ '\n' :: rest) = Text.dropReturn line := by
  induction line with
  | nil => rfl
  | cons c cs ih =>
      obtain ⟨hc, hcs⟩ := List.ne_and_not_mem_of_not_mem_cons h
      cases cs with
      | nil =>
          by_cases hreturn : c = '\r'
          · subst hreturn
            rfl
          · simp [firstLine, Text.dropReturn, hreturn, hc.symm]
      | cons d ds =>
          have hd : d ≠ '\n' := (List.ne_of_not_mem_cons hcs).symm
          rw [List.cons_append, firstLine, ih hcs]
          · unfold Text.dropReturn
            rw [List.getLast?_cons_cons]
            split <;> rfl
          · exact fun h => hc h.symm
          · rintro rest' - hrest
            exact hd (List.cons.inj hrest).1

theorem headD_lines (cs : List Char) : (Text.lines cs).headD [] = firstLine cs := by
  by_cases h : '\n' ∈ cs
  · obtain ⟨line, rest, rfl, hline⟩ := List.eq_append_cons_of_mem h
    rw [firstLine_append rest hline, Text.lines, Text.pieces_append_cons, Text.pieces_of_not_mem hline,
      List.singleton_append, List.dropLast_cons_of_ne_nil (Text.pieces_ne_nil '\n' rest)]
    rfl
  · rw [firstLine_of_not_mem h, Text.lines, Text.pieces_of_not_mem h]
    cases cs <;> rfl

theorem summary_eq (r : Resource) : r.summary = r.lead := by
  rw [Resource.summary, Resource.lead, headD_lines]
  simp only [String.isEmpty_iff]

end Summary

section Item

variable {call : Call} {scopes : Scopes}

def itemValue (a : Attribute) : Value :=
  (Item.ofAttribute a).value

def itemScopes (a : Attribute) (scopes : Scopes) : Scopes :=
  [("a", itemValue a)] :: scopes

theorem eval_itemMember (a : Attribute) {member : String} {v : Value}
    (h : (itemValue a).member member = .ok v) :
    (Expr.member (.name "a") member).eval call (itemScopes a scopes) = .ok v :=
  eval_member (eval_name "a") h

theorem writes_textPiece {name member s : String}
    (h : (Expr.member (.name name) member).eval call scopes = .ok (.text s)) :
    Node.Writes call scopes
      (.choice (.member (.name name) member) [.text " ", putMember name member, .text ""] [])
      (piece s) := by
  refine .choice h (fun htrue => ?_) fun hfalse => ?_
  · have hs : s.isEmpty = false := by simpa [Value.isTrue] using htrue
    refine .of_eq (.cons (.text " ") (.cons (.outputText h) (.cons (.text "") .nil))) ?_
    simp [piece, hs]
  · have hs : s.isEmpty = true := by simpa [Value.isTrue] using hfalse
    exact .of_eq .nil (by rw [piece, if_pos hs])

theorem writes_necessity (a : Attribute) :
    Node.Writes call (itemScopes a scopes)
      (.choice (.member (.name "a") "required") [.text " (Required)"]
        [.choice (.member (.name "a") "optional") [.text " (Optional)"] []])
      (piece a.necessity) := by
  refine .choice (eval_itemMember a rfl) (fun hrequired => ?_) fun hrequired => ?_
  · replace hrequired : a.required = true := hrequired
    refine .of_eq (.cons (.text " (Required)") .nil) ?_
    simp [Attribute.necessity, hrequired, piece]
  · replace hrequired : a.required = false := hrequired
    have hinner : Node.Writes call (itemScopes a scopes)
        (.choice (.member (.name "a") "optional") [.text " (Optional)"] []) (piece a.necessity) := by
      refine .choice (eval_itemMember a rfl) (fun hoptional => ?_) fun hoptional => ?_
      · replace hoptional : a.optional = true := hoptional
        refine .of_eq (.cons (.text " (Optional)") .nil) ?_
        simp [Attribute.necessity, hrequired, hoptional, piece]
      · replace hoptional : a.optional = false := hoptional
        refine .of_eq .nil ?_
        simp [Attribute.necessity, hrequired, hoptional, piece]
    exact .of_eq (.cons hinner .nil) String.append_empty

theorem writes_blockPiece (a : Attribute) :
    Node.Writes call (itemScopes a scopes)
      (.choice (.member (.name "a") "block")
        [.text " A \x60", putMember "a" "name", .text "\x60 block as defined below."] [])
      (piece a.blockNote) := by
  refine .choice (eval_itemMember a rfl) (fun hblock => ?_) fun hblock => ?_
  · replace hblock : (!a.attributes.isEmpty) = true := hblock
    replace hblock : a.attributes.isEmpty = false := by simpa using hblock
    have hname : (Expr.member (.name "a") "name").eval call (itemScopes a scopes) = .ok (.text a.name) :=
      eval_itemMember a rfl
    refine .of_eq (.cons (.text _) (.cons (.outputText hname) (.cons (.text _) .nil))) ?_
    simp [piece, Attribute.blockNote, hblock, coded, ← String.toList_inj]
  · replace hblock : (!a.attributes.isEmpty) = false := hblock
    replace hblock : a.attributes.isEmpty = true := by simpa using hblock
    refine .of_eq .nil ?_
    simp [Attribute.blockNote, hblock, piece]

theorem writes_boundsPiece (a : Attribute) :
    Node.Writes call (itemScopes a scopes)
      (.choice (.member (.name "a") "bounds") [.text " ", putMember "a" "bounds", .text ""] [])
      (piece ((boundsSentence a.min a.max).getD "")) := by
  rw [← boundsText_eq]
  cases hbounds : boundsText a.min a.max with
  | some s =>
      refine writes_textPiece (eval_itemMember a ?_)
      rw [itemValue, Item.value, Item.ofAttribute, hbounds]
      rfl
  | none =>
      have habsent : (Expr.member (.name "a") "bounds").eval call (itemScopes a scopes) = .ok .absent := by
        refine eval_itemMember a ?_
        rw [itemValue, Item.value, Item.ofAttribute, hbounds]
        rfl
      exact .choice habsent (fun h => absurd h Bool.false_ne_true) fun _ => .nil

theorem writesAll_itemBody (a : Attribute) : WritesAll call (itemScopes a scopes) itemBody a.line := by
  have hname : (Expr.member (.name "a") "name").eval call (itemScopes a scopes) = .ok (.text a.name) :=
    eval_itemMember a rfl
  have hdescription : (Expr.member (.name "a") "description").eval call (itemScopes a scopes) =
      .ok (.text a.description) :=
    eval_itemMember a rfl
  refine .of_eq (.cons (.text _) <| .cons (.outputText hname) <| .cons (.text _) <|
    .cons (writes_necessity a) <| .cons (.text _) <| .cons (writes_textPiece hdescription) <|
    .cons (.text _) <| .cons (writes_blockPiece a) <| .cons (.text _) <|
    .cons (writes_boundsPiece a) <| .cons (.text _) .nil) ?_
  simp [Attribute.line, coded, ← String.toList_inj]

end Item

section Loops

variable {depth : Nat} {scopes : Scopes}

def itemRoutineValue : Value :=
  .routine 1 "item" ["a"] itemBody

theorem writes_itemLoop {items : Expr} {as : List Attribute} (hitem : scopes.get "item" = itemRoutineValue)
    (h : items.eval (callAtMost (depth + 1)) scopes = .ok (.list (as.map itemValue))) :
    (itemLoop items).Writes (callAtMost (depth + 1)) scopes (linesOf as) := by
  refine .loop h fun index a _ => ?_
  have hcall : (Expr.call (.name "item") [.name "a"]).eval (callAtMost (depth + 1))
      ([("a", itemValue a), ("loop", loopValue index as.length)] :: scopes) = .ok (.text a.line) := by
    have hroutine : Scopes.get "item"
        ([("a", itemValue a), ("loop", loopValue index as.length)] :: scopes) = itemRoutineValue :=
      hitem
    refine eval_call (eval_name "item") (evalAll_cons (eval_name "a") evalAll_nil) ?_
    rw [hroutine]
    exact callAtMost_routine (Nat.le_refl 1) (writesAll_itemBody a)
  refine .of_eq (.cons (.text "") (.cons (.outputText hcall) (.cons (.text "\n") .nil))) ?_
  simp

def sectionValue (a : Attribute) : Value :=
  (BlockSection.ofAttribute a).value

theorem writes_blockLoop {as : List Attribute} (hitem : scopes.get "item" = itemRoutineValue)
    (h : (Expr.name "blocks").eval (callAtMost (depth + 1)) scopes =
      .ok (.list (as.map sectionValue))) :
    blockLoop.Writes (callAtMost (depth + 1)) scopes (String.join (as.map Attribute.sectionText)) := by
  refine .loop h fun index a _ => ?_
  have hmember (member : String) {v : Value} (h : (sectionValue a).member member = .ok v) :
      (Expr.member (.name "block") member).eval (callAtMost (depth + 1))
        ([("block", sectionValue a), ("loop", loopValue index as.length)] :: scopes) = .ok v :=
    eval_member (eval_name "block") h
  have hname := hmember "name" (v := .text a.name) rfl
  have hverb := hmember "verb" (v := .text (verbFor a)) rfl
  have hitem' : Scopes.get "item" ([("block", sectionValue a), ("loop", loopValue index as.length)] :: scopes) =
      itemRoutineValue :=
    hitem
  have hvalues : (sectionValue a).member "items" = .ok (.list (a.attributes.map itemValue)) :=
    congrArg (fun vs => Except.ok (Value.list vs)) List.map_map
  have hitems := writes_itemLoop hitem' (hmember "items" hvalues)
  refine .of_eq (.cons (.text _) <| .cons (.outputText hname) <| .cons (.text _) <|
    .cons (.outputText hverb) <| .cons (.text _) <| .cons hitems <| .cons (.text _) .nil) ?_
  simp [Attribute.sectionText, coded, ← String.toList_inj]

end Loops

section Page

variable {call : Call} {depth : Nat}

def pageScopes (r : Resource) : Scopes :=
  [("item", itemRoutineValue) :: r.page.names]

theorem eval_resourceMember (r : Resource) (member : String) {v : Value}
    (h : (templateValue r.toJson).member member = .ok v) :
    (Expr.member (.name "resource") member).eval call (pageScopes r) = .ok v :=
  eval_member (eval_name "resource") h

theorem writes_resourceMember (r : Resource) (member : String) {s : String}
    (h : (templateValue r.toJson).member member = .ok (.text s)) :
    (putMember "resource" member).Writes call (pageScopes r) s :=
  .outputText (eval_resourceMember r member h)

theorem writes_put (r : Resource) (name : String) {s : String} (h : (pageScopes r).get name = .text s) :
    (put name).Writes call (pageScopes r) s :=
  .outputText ((eval_name name).trans (congrArg Except.ok h))

theorem wording_eq (type : ResourceType) : ⟨type.name, type.title, type.noun⟩ = type.wording := by
  cases type <;> rfl

theorem writes_noun (r : Resource) : (put "noun").Writes call (pageScopes r) r.type.wording.noun :=
  writes_put r "noun" (congrArg (Value.text ∘ Wording.noun) (wording_eq r.type))

theorem writes_dashedSuffix (r : Resource) :
    Node.Writes call (pageScopes r)
      (.output (.filter "replace" (.member (.name "resource") "name_suffix") [.text "_", .text "-"]))
      r.dashedSuffix := by
  have hsuffix : (Expr.member (.name "resource") "name_suffix").eval call (pageScopes r) =
      .ok (.text r.nameSuffix) :=
    eval_resourceMember r "name_suffix" rfl
  have harguments : Expr.evalAll call (pageScopes r) [.text "_", .text "-"] =
      .ok [.text "_", .text "-"] :=
    evalAll_cons (eval_text "_") (evalAll_cons (eval_text "-") evalAll_nil)
  have hfilter : applyFilter "replace" (.text r.nameSuffix) [.text "_", .text "-"] =
      .ok (.text r.dashedSuffix) := by
    simp [applyFilter, Value.display, Text.replaceAll_singleton, Resource.dashedSuffix]
  exact .outputText (eval_filter hsuffix harguments hfilter)

theorem writesAll_frontNodes (r : Resource) :
    WritesAll call (pageScopes r) frontNodes
      (r.frontMatter ++ ("# " ++ r.type.wording.heading ++ ": " ++ r.name ++ "\n\n")) := by
  have hprovider : (putMember "resource" "provider").Writes call (pageScopes r) r.provider :=
    writes_resourceMember r "provider" rfl
  have hname : (putMember "resource" "name").Writes call (pageScopes r) r.name :=
    writes_resourceMember r "name" rfl
  have htype : (putMember "resource" "type").Writes call (pageScopes r) r.type.wording.tag :=
    writes_resourceMember r "type" (congrArg (Except.ok ∘ Value.text ∘ Wording.tag) (wording_eq r.type))
  have htitle : (put "title").Writes call (pageScopes r) r.type.wording.heading :=
    writes_put r "title" (congrArg (Value.text ∘ Wording.heading) (wording_eq r.type))
  have hsummary : (put "summary").Writes call (pageScopes r) r.lead :=
    writes_put r "summary" (congrArg Value.text (summary_eq r))
  refine .of_eq (.cons (.text _) <| .cons hprovider <| .cons (.text _) <| .cons hprovider <|
    .cons (.text _) <| .cons hname <| .cons (.text _) <| .cons hprovider <|
    .cons (.text _) <| .cons htype <| .cons (.text _) <| .cons (writes_dashedSuffix r) <|
    .cons (.text _) <| .cons hsummary <| .cons (.text _) <| .cons htitle <|
    .cons (.text _) <| .cons hname <| .cons (.text _) .nil) ?_
  rw [← String.toList_inj]
  unfold Resource.frontMatter
  simp only [String.toList_append, String.reduceToList, List.append_assoc, List.cons_append,
    List.nil_append, List.append_nil]

theorem writes_descriptionChoice (r : Resource) :
    descriptionChoice.Writes call (pageScopes r)
      (if r.description.isEmpty then "" else r.description ++ "\n\n") := by
  have hdescription : (Expr.member (.name "resource") "description").eval call (pageScopes r) =
      .ok (.text r.description) :=
    eval_resourceMember r "description" rfl
  refine .choice hdescription (fun htrue => ?_) fun hfalse => ?_
  · have hs : r.description.isEmpty = false := by simpa [Value.isTrue] using htrue
    refine .of_eq (.cons (.text "") (.cons (.outputText hdescription) (.cons (.text _) .nil))) ?_
    simp [hs]
  · have hs : r.description.isEmpty = true := by simpa [Value.isTrue] using hfalse
    exact .of_eq .nil (by rw [if_pos hs])

theorem writes_argumentChoice (r : Resource) :
    argumentChoice.Writes (callAtMost (depth + 1)) (pageScopes r)
      (if r.arguments.isEmpty then "This " ++ r.type.wording.noun ++ " has no arguments.\n"
        else "The following arguments are supported:\n\n" ++ linesOf r.arguments) := by
  have harguments : (Expr.name "arguments").eval (callAtMost (depth + 1)) (pageScopes r) =
      .ok (.list (r.arguments.map itemValue)) :=
    (eval_name "arguments").trans (congrArg (Except.ok ∘ Value.list) List.map_map)
  refine .choice harguments (fun htrue => ?_) fun hfalse => ?_
  · have hs : r.arguments.isEmpty = false := by simpa [Value.isTrue] using htrue
    refine .of_eq (.cons (.text _) (.cons (writes_itemLoop rfl harguments) (.cons (.text "") .nil))) ?_
    simp [hs]
  · have hs : r.arguments.isEmpty = true := by simpa [Value.isTrue] using hfalse
    refine .of_eq (.cons (.text _) (.cons (writes_noun r) (.cons (.text _) .nil))) ?_
    rw [if_pos hs, String.append_empty, String.append_assoc]

theorem writesAll_argumentNodes (r : Resource) :
    WritesAll (callAtMost (depth + 1)) (pageScopes r) argumentNodes
      ((if r.description.isEmpty then "" else r.description ++ "\n\n")
        ++ ("## Argument Reference\n\n"
          ++ (if r.arguments.isEmpty then "This " ++ r.type.wording.noun ++ " has no arguments.\n"
              else "The following arguments are supported:\n\n" ++ linesOf r.arguments))) :=
  .of_eq (.cons (writes_descriptionChoice r) <| .cons (.text _) <|
    .cons (writes_argumentChoice r) .nil) (by rw [String.append_empty])

theorem writesAll_exportedNodes (r : Resource) :
    WritesAll (callAtMost (depth + 1)) (pageScopes r) exportedNodes
      ("\n" ++ r.exportedPart ++ String.join ((blocksOf r.attributes).map Attribute.sectionText)) := by
  have hexported : (itemLoop (.name "exported")).Writes (callAtMost (depth + 1)) (pageScopes r)
      (linesOf r.exported) :=
    writes_itemLoop rfl
      ((eval_name "exported").trans (congrArg (Except.ok ∘ Value.list) List.map_map))
  have hvalues : r.page.blocks.map BlockSection.value = (blocksOf r.attributes).map sectionValue := by
    rw [blocks_page, List.map_map]
    rfl
  have hblocks : blockLoop.Writes (callAtMost (depth + 1)) (pageScopes r)
      (String.join ((blocksOf r.attributes).map Attribute.sectionText)) :=
    writes_blockLoop rfl ((eval_name "blocks").trans (congrArg (Except.ok ∘ Value.list) hvalues))
  refine .of_eq (.cons (.text _) <| .cons (writes_noun r) <| .cons (.text _) <|
    .cons hexported <| .cons (.text _) <| .cons hblocks <| .cons (.text _) .nil) ?_
  rw [← String.toList_inj]
  unfold Resource.exportedPart coded
  simp only [String.toList_append, String.reduceToList, List.append_assoc, List.cons_append,
    List.nil_append, List.append_nil]

theorem writesAll_pageNodes (r : Resource) :
    WritesAll (callAtMost (depth + 1)) (pageScopes r) pageNodes r.layout := by
  refine .of_eq (.append (.append (writesAll_frontNodes r) (writesAll_argumentNodes r))
    (writesAll_exportedNodes r)) ?_
  unfold Resource.layout Resource.head Resource.argumentPart
  simp only [String.append_assoc]

end Page

/-- Every resource can be rendered with the standard template, and the page is the resource's layout. -/
theorem render_standardTemplate :
    ∃ template, parse standardTemplate = some template ∧
      ∀ r : Resource, r.render template = .ok r.layout := by
  refine ⟨_, parse_standardTemplate, fun r => ?_⟩
  have hpage : WritesAll (callAtMost maxDepth) (pageScopes r) pageNodes r.layout :=
    writesAll_pageNodes r
  have hdefine : (Node.define "item" ["a"] itemBody).render (callAtMost maxDepth) [r.page.names] =
      .ok ("", pageScopes r) := by
    simp only [Node.render, pageScopes, itemRoutineValue, Scopes.set, List.length_cons, List.length_nil]
  have hall := renderAll_cons (Node.Writes.text "") (renderAll_cons hdefine hpage)
  rw [Resource.render, Template.render, hall]
  simp [Bind.bind, Except.bind, pure, Except.pure]

end ProviderManual.Manual
