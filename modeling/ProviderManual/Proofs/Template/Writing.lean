import ProviderManual.Template.Render

/-! What a template writes, one rule for each kind of node. -/

namespace ProviderManual.Template

section Rules

variable {call : Call} {scopes : Scopes}

def Node.Writes (call : Call) (scopes : Scopes) (n : Node) (s : String) : Prop :=
  n.render call scopes = .ok (s, scopes)

def WritesAll (call : Call) (scopes : Scopes) (ns : List Node) (s : String) : Prop :=
  Node.renderAll call scopes ns = .ok (s, scopes)

theorem WritesAll.nil : WritesAll call scopes [] "" := by
  simp only [WritesAll, Node.renderAll]

theorem WritesAll.of_eq {ns : List Node} {s t : String} (h : WritesAll call scopes ns s) (hs : s = t) :
    WritesAll call scopes ns t :=
  hs ▸ h

theorem renderAll_cons {n : Node} {ns : List Node} {s t : String} {inner after : Scopes}
    (hn : n.render call scopes = .ok (s, inner))
    (hns : Node.renderAll call inner ns = .ok (t, after)) :
    Node.renderAll call scopes (n :: ns) = .ok (s ++ t, after) := by
  simp only [Node.renderAll, hn, hns, Bind.bind, Except.bind, pure, Except.pure]

theorem WritesAll.cons {n : Node} {ns : List Node} {s t : String}
    (hn : n.Writes call scopes s) (hns : WritesAll call scopes ns t) :
    WritesAll call scopes (n :: ns) (s ++ t) :=
  renderAll_cons hn hns

theorem renderAll_append {ns ms : List Node} {s t : String} {inner after : Scopes}
    (hns : Node.renderAll call scopes ns = .ok (s, inner))
    (hms : Node.renderAll call inner ms = .ok (t, after)) :
    Node.renderAll call scopes (ns ++ ms) = .ok (s ++ t, after) := by
  induction ns generalizing scopes s with
  | nil =>
      simp only [Node.renderAll] at hns
      cases hns
      rw [List.nil_append, hms, String.empty_append]
  | cons n ns ih =>
      cases hn : n.render call scopes with
      | error f => simp only [Node.renderAll, hn, Bind.bind, Except.bind, reduceCtorEq] at hns
      | ok p =>
          cases hrest : Node.renderAll call p.2 ns with
          | error f => simp only [Node.renderAll, hn, hrest, Bind.bind, Except.bind, reduceCtorEq] at hns
          | ok q =>
              simp only [Node.renderAll, hn, hrest, Bind.bind, Except.bind, pure, Except.pure] at hns
              cases hns
              rw [List.cons_append, renderAll_cons hn (ih hrest), String.append_assoc]

theorem WritesAll.append {ns ms : List Node} {s t : String} (hns : WritesAll call scopes ns s)
    (hms : WritesAll call scopes ms t) : WritesAll call scopes (ns ++ ms) (s ++ t) :=
  renderAll_append hns hms

theorem Node.Writes.text (s : String) : Node.Writes call scopes (.text s) s := by
  simp only [Node.Writes, Node.render]

theorem Node.Writes.output {x : Expr} {v : Value} (h : x.eval call scopes = .ok v) :
    Node.Writes call scopes (.output x) v.display := by
  simp only [Node.Writes, Node.render, h, Bind.bind, Except.bind, pure, Except.pure]

theorem Node.Writes.outputText {x : Expr} {s : String} (h : x.eval call scopes = .ok (.text s)) :
    Node.Writes call scopes (.output x) s := by
  have hdisplay : (Value.text s).display = s := by simp only [Value.display]
  exact hdisplay ▸ Node.Writes.output h

theorem Node.Writes.choice {condition : Expr} {v : Value} {yes no : List Node} {s : String}
    (h : condition.eval call scopes = .ok v)
    (hyes : v.isTrue = true → WritesAll call scopes yes s)
    (hno : v.isTrue = false → WritesAll call scopes no s) :
    Node.Writes call scopes (.choice condition yes no) s := by
  simp only [Node.Writes, Node.render, h, Bind.bind, Except.bind]
  cases hv : v.isTrue with
  | true => exact hyes hv
  | false => exact hno hv

theorem eachItem_map {α : Type} {round : Nat → Value → Except Fault String} {value : α → Value}
    {line : α → String} {xs : List α}
    (hround : ∀ index, ∀ x ∈ xs, round index (value x) = .ok (line x)) (index : Nat) :
    eachItem round index (xs.map value) = .ok (String.join (xs.map line)) := by
  induction xs generalizing index with
  | nil => rfl
  | cons x xs ih =>
      have hx := hround index x List.mem_cons_self
      have hxs := ih (fun index y hy => hround index y (List.mem_cons_of_mem x hy)) (index + 1)
      rw [List.map_cons, List.map_cons, String.join_cons]
      simp only [eachItem, hx, hxs, Bind.bind, Except.bind, pure, Except.pure]

theorem Node.Writes.loop {α : Type} {name : String} {items : Expr} {body : List Node} {xs : List α}
    {value : α → Value} {line : α → String}
    (h : items.eval call scopes = .ok (.list (xs.map value)))
    (hbody : ∀ index, ∀ x ∈ xs,
      WritesAll call ([(name, value x), ("loop", loopValue index xs.length)] :: scopes) body
        (line x)) :
    Node.Writes call scopes (.loop name items body []) (String.join (xs.map line)) := by
  simp only [Node.Writes, Node.render, h, Value.items, Bind.bind, Except.bind, pure, Except.pure]
  cases xs with
  | nil => rfl
  | cons x xs =>
      rw [List.map_cons, List.isEmpty_cons, if_neg Bool.false_ne_true, ← List.map_cons,
        List.length_map]
      refine congrArg (Except.map fun t => (t, scopes)) (eachItem_map (fun index y hy => ?_) 0)
      have hround := hbody index y hy
      rw [WritesAll] at hround
      rw [hround]

theorem callAtMost_routine {depth level : Nat} {name : String} {parameters : List String}
    {body : List Node} {arguments : List Value} {s : String}
    (hlength : arguments.length ≤ parameters.length)
    (hbody : WritesAll (callAtMost depth)
      (bind parameters arguments :: scopes.drop (scopes.length - level)) body s) :
    callAtMost (depth + 1) scopes (.routine level name parameters body) arguments =
      .ok (.text s) := by
  rw [WritesAll] at hbody
  simp only [callAtMost, if_neg (Nat.not_lt.2 hlength), hbody, Bind.bind, Except.bind, pure,
    Except.pure]

end Rules

section Expressions

variable {call : Call} {scopes : Scopes}

theorem eval_name (name : String) : (Expr.name name).eval call scopes = .ok (scopes.get name) := by
  simp only [Expr.eval]

theorem eval_text (s : String) : (Expr.text s).eval call scopes = .ok (.text s) := by
  simp only [Expr.eval]

theorem eval_member {x : Expr} {name : String} {v w : Value} (h : x.eval call scopes = .ok v)
    (hmember : v.member name = .ok w) : (Expr.member x name).eval call scopes = .ok w := by
  simp only [Expr.eval, h, Bind.bind, Except.bind, hmember]

theorem evalAll_nil : Expr.evalAll call scopes [] = .ok [] := by
  simp only [Expr.evalAll]

theorem evalAll_cons {x : Expr} {xs : List Expr} {v : Value} {vs : List Value}
    (hx : x.eval call scopes = .ok v) (hxs : Expr.evalAll call scopes xs = .ok vs) :
    Expr.evalAll call scopes (x :: xs) = .ok (v :: vs) := by
  simp only [Expr.evalAll, hx, hxs, Bind.bind, Except.bind, pure, Except.pure]

theorem eval_call {callee : Expr} {arguments : List Expr} {v w : Value} {vs : List Value}
    (hcallee : callee.eval call scopes = .ok v)
    (harguments : Expr.evalAll call scopes arguments = .ok vs) (hcall : call scopes v vs = .ok w) :
    (Expr.call callee arguments).eval call scopes = .ok w := by
  simp only [Expr.eval, hcallee, harguments, hcall, Bind.bind, Except.bind]

theorem eval_filter {name : String} {x : Expr} {arguments : List Expr} {v w : Value} {vs : List Value}
    (hx : x.eval call scopes = .ok v) (harguments : Expr.evalAll call scopes arguments = .ok vs)
    (hfilter : applyFilter name v vs = .ok w) :
    (Expr.filter name x arguments).eval call scopes = .ok w := by
  simp only [Expr.eval, hx, harguments, hfilter, Bind.bind, Except.bind]

end Expressions

end ProviderManual.Template
