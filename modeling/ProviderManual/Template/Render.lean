import ProviderManual.Template.Basic
import ProviderManual.Text.Case
import ProviderManual.Text.Order
import ProviderManual.Text.Shown
import ProviderManual.Text.Pieces

/-! A name without a value is undefined: no text, false, nothing to repeat for, and without members. -/

namespace ProviderManual.Template

namespace Value

mutual

def display : Value → String
  | undefined => ""
  | absent => "None"
  | bool true => "True"
  | bool false => "False"
  | int n => toString n
  | text s => s
  | list items => "[" ++ ", ".intercalate (displayAll items) ++ "]"
  | map members => "\x7b" ++ ", ".intercalate (displayMembers members) ++ "\x7d"
  | routine _ name _ _ => "<macro " ++ name ++ ">"

def displayItem : Value → String
  | text s => Text.quoted s
  | v => v.display

def displayAll : List Value → List String
  | [] => []
  | v :: vs => v.displayItem :: displayAll vs

def displayMembers : List (String × Value) → List String
  | [] => []
  | (name, v) :: ms => (Text.quoted name ++ ": " ++ v.displayItem) :: displayMembers ms

end

def isTrue : Value → Bool
  | undefined | absent => false
  | bool b => b
  | int n => n ≠ 0
  | text s => !s.isEmpty
  | list items => !items.isEmpty
  | map members => !members.isEmpty
  | routine .. => true

def find? (name : String) : List (String × Value) → Option Value
  | [] => none
  | (n, v) :: ms => if n = name then some v else find? name ms

def member (name : String) : Value → Except Fault Value
  | undefined => .error (.memberOfUndefined name)
  | map members => .ok ((find? name members).getD undefined)
  | _ => .ok undefined

def itemAt (items : List Value) (n : Int) : Value :=
  let index := if n < 0 then n + items.length else n
  if index < 0 then undefined else items.getD index.toNat undefined

def item (key : Value) : Value → Except Fault Value
  | undefined => .error (.memberOfUndefined key.display)
  | map members =>
      match key with
      | text name => .ok ((find? name members).getD undefined)
      | _ => .ok undefined
  | list items =>
      match key with
      | int n => .ok (itemAt items n)
      | _ => .ok undefined
  | _ => .ok undefined

def items : Value → Except Fault (List Value)
  | undefined | absent => .ok []
  | text s => .ok (s.toList.map fun c => text (String.singleton c))
  | list items => .ok items
  | map members => .ok ((Text.sortOn Prod.fst members).map fun (name, _) => text name)
  | _ => .error .noItems

def length : Value → Except Fault Nat
  | text s => .ok s.length
  | list items => .ok items.length
  | map members => .ok members.length
  | _ => .error .noLength

mutual

def same : Value → Value → Bool
  | undefined, undefined => true
  | absent, absent => true
  | bool a, bool b => a = b
  | int a, int b => a = b
  | text a, text b => a = b
  | list as, list bs => sameAll as bs
  | map as, map bs => sameMembers as bs
  | _, _ => false

def sameAll : List Value → List Value → Bool
  | [], [] => true
  | a :: as, b :: bs => a.same b && sameAll as bs
  | _, _ => false

def sameMembers : List (String × Value) → List (String × Value) → Bool
  | [], [] => true
  | (m, a) :: as, (n, b) :: bs => m = n && a.same b && sameMembers as bs
  | _, _ => false

end

def atMost : Value → Value → Bool
  | int a, int b => a ≤ b
  | text a, text b => Text.bytesLe a b
  | bool a, bool b => !a || b
  | a, b => a.same b

end Value

def Comparison.holds (c : Comparison) (a b : Value) : Bool :=
  match c with
  | .equal => a.same b
  | .unequal => !a.same b
  | .less => a.atMost b && !a.same b
  | .atMost => a.atMost b
  | .greater => b.atMost a && !a.same b
  | .atLeast => b.atMost a

def applyFilter (name : String) (v : Value) (arguments : List Value) : Except Fault Value :=
  match name, arguments with
  | "upper", [] => .ok (.text (Text.upper v.display))
  | "lower", [] => .ok (.text (Text.lower v.display))
  | "length", [] => do return .int (← v.length)
  | "replace", [old, new] =>
      .ok (.text (String.ofList
        (Text.replaceAll old.display.toList new.display.toList v.display.toList)))
  | "upper", _ | "lower", _ | "length", _ | "replace", _ => .error (.arguments name)
  | _, _ => .error (.unknownFilter name)

abbrev Scopes := List (List (String × Value))

namespace Scopes

def get (name : String) : Scopes → Value
  | [] => .undefined
  | scope :: outer => (Value.find? name scope).getD (get name outer)

def set (name : String) (v : Value) : Scopes → Scopes
  | [] => [[(name, v)]]
  | scope :: outer => ((name, v) :: scope) :: outer

end Scopes

abbrev Call := Scopes → Value → List Value → Except Fault Value

section

variable (call : Call)

mutual

def Expr.eval (scopes : Scopes) : Expr → Except Fault Value
  | .absent => .ok .absent
  | .bool b => .ok (.bool b)
  | .int n => .ok (.int n)
  | .text s => .ok (.text s)
  | .name n => .ok (scopes.get n)
  | .member x n => do (← x.eval scopes).member n
  | .item x key => do
      let v ← x.eval scopes
      v.item (← key.eval scopes)
  | .call callee arguments => do
      let v ← callee.eval scopes
      call scopes v (← Expr.evalAll scopes arguments)
  | .filter n x arguments => do
      let v ← x.eval scopes
      applyFilter n v (← Expr.evalAll scopes arguments)
  | .not x => do return .bool !(← x.eval scopes).isTrue
  | .both x y => do
      let v ← x.eval scopes
      if v.isTrue then y.eval scopes else return v
  | .either x y => do
      let v ← x.eval scopes
      if v.isTrue then return v else y.eval scopes
  | .compare c x y => do
      let v ← x.eval scopes
      return .bool (c.holds v (← y.eval scopes))

def Expr.evalAll (scopes : Scopes) : List Expr → Except Fault (List Value)
  | [] => .ok []
  | x :: xs => do
      let v ← x.eval scopes
      return v :: (← Expr.evalAll scopes xs)

end

def loopValue (index length : Nat) : Value :=
  .map [("index", .int (index + 1)), ("index0", .int index),
    ("revindex", .int (length - index : Nat)), ("revindex0", .int (length - index - 1 : Nat)),
    ("first", .bool (index = 0)), ("last", .bool (index + 1 = length)), ("length", .int length)]

def eachItem (round : Nat → Value → Except Fault String) (index : Nat) :
    List Value → Except Fault String
  | [] => .ok ""
  | v :: vs => do
      let s ← round index v
      return s ++ (← eachItem round (index + 1) vs)

mutual

def Node.render (scopes : Scopes) : Node → Except Fault (String × Scopes)
  | .text s => .ok (s, scopes)
  | .output x => do return ((← x.eval call scopes).display, scopes)
  | .choice condition yes no => do
      if (← condition.eval call scopes).isTrue then Node.renderAll scopes yes
      else Node.renderAll scopes no
  | .loop name items body otherwise => do
      let vs ← (← items.eval call scopes).items
      if vs.isEmpty then
        let (s, _) ← Node.renderAll ([] :: scopes) otherwise
        return (s, scopes)
      else
        let round (index : Nat) (v : Value) : Except Fault String := do
          let scope := [(name, v), ("loop", loopValue index vs.length)]
          return (← Node.renderAll (scope :: scopes) body).1
        return (← eachItem round 0 vs, scopes)
  | .assign name x => do return ("", scopes.set name (← x.eval call scopes))
  | .define name parameters body =>
      .ok ("", scopes.set name (.routine scopes.length name parameters body))

def Node.renderAll (scopes : Scopes) : List Node → Except Fault (String × Scopes)
  | [] => .ok ("", scopes)
  | n :: ns => do
      let (s, inner) ← n.render scopes
      let (t, after) ← Node.renderAll inner ns
      return (s ++ t, after)

end

end

def bind : List String → List Value → List (String × Value)
  | [], _ => []
  | name :: names, [] => (name, .undefined) :: bind names []
  | name :: names, v :: vs => (name, v) :: bind names vs

/-- Calls a routine in the scopes that are open where it is defined; calls are nested at most `depth`
deep. -/
def callAtMost : Nat → Call
  | 0 => fun _ _ _ => .error .tooDeep
  | depth + 1 => fun scopes v arguments =>
      match v with
      | .routine level name parameters body =>
          if parameters.length < arguments.length then .error (.arguments name)
          else do
            let outer := scopes.drop (scopes.length - level)
            let (s, _) ← Node.renderAll (callAtMost depth) (bind parameters arguments :: outer) body
            return .text s
      | _ => .error .unknownRoutine

def maxDepth : Nat :=
  500

def render (names : List (String × Value)) (template : List Node) : Except Fault String := do
  return (← Node.renderAll (callAtMost maxDepth) [names] template).1

end ProviderManual.Template
