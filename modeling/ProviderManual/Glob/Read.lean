import ProviderManual.Glob.Basic

namespace ProviderManual.Glob

inductive Fault where
  | unclosedClass
  | invalidRange (first last : Char)
  | unopenedGroup
  | unclosedGroup
  | danglingEscape
  deriving DecidableEq, Repr

def Fault.message : Fault → String
  | .unclosedClass => "unclosed character class; missing ']'"
  | .invalidRange first last =>
      "invalid range; '" ++ String.singleton first ++ "' > '" ++ String.singleton last ++ "'"
  | .unopenedGroup =>
      "unopened alternate group; missing '\x7b' (maybe escape '\x7d' with '[\x7d]'?)"
  | .unclosedGroup =>
      "unclosed alternate group; missing '\x7d' (maybe escape '\x7b' with '[\x7b]'?)"
  | .danglingEscape => "dangling '\\'"

structure Error where
  text : String
  fault : Fault
  deriving DecidableEq, Repr

def Error.message (e : Error) : String :=
  "error parsing glob '" ++ e.text ++ "': " ++ e.fault.message

structure OpenClass where
  negated : Bool
  ranges : List (Char × Char)
  inRange : Bool

structure Reading where
  previous : Option Char
  branch : List Part
  groups : List (List (List Part) × List Part)
  openClass : Option OpenClass

namespace Reading

def empty : Reading :=
  ⟨none, [], [], none⟩

def push (r : Reading) (previous : Char) (ps : List Part) : Reading :=
  { r with previous := some previous, branch := ps ++ r.branch }

def addToClass (k : OpenClass) (c : Char) : Except Fault OpenClass :=
  match k.inRange, k.ranges with
  | true, (first, _) :: ranges =>
      if c < first then .error (.invalidRange first c)
      else .ok { k with ranges := (first, c) :: ranges, inRange := false }
  | _, ranges => .ok { k with ranges := (c, c) :: ranges, inRange := false }

def inClass (r : Reading) (k : OpenClass) (c : Char) : Except Fault Reading := do
  let isFirst := k.ranges.isEmpty
  if c = ']' ∧ ¬ isFirst then
    let ranges := if k.inRange then ('-', '-') :: k.ranges else k.ranges
    return { r.push c [.range k.negated ranges.reverse] with openClass := none }
  else if c = '-' ∧ ¬ isFirst ∧ ¬ k.inRange then
    return { r with previous := some c, openClass := some { k with inRange := true } }
  else
    return { r with previous := some c, openClass := some (← addToClass k c) }

def mayOpenDirectories (r : Reading) : Bool :=
  r.previous = some '/' ||
    (!r.groups.isEmpty && (r.previous = some ',' || r.previous = some '\x7b'))

def replaceLast (r : Reading) (previous : Char) (p : Part) : Reading :=
  let last := match r.branch with
    | .directoriesFirst :: _ => Part.directoriesFirst
    | .directoriesLast :: _ => .directoriesLast
    | _ => p
  { r with previous := some previous, branch := last :: r.branch.drop 1 }

def single (r : Reading) (c : Char) : Except Fault Reading :=
  match c, r.groups with
  | '?', _ => .ok (r.push c [.any])
  | '*', _ => .ok (r.push c [.many])
  | '\x7b', groups =>
      .ok { r with previous := some c, branch := [], groups := ([], r.branch) :: groups }
  | '\x7d', [] => .error .unopenedGroup
  | '\x7d', (branches, before) :: groups =>
      let branches := (r.branch.reverse :: branches).reverse
      .ok { r with previous := some c, branch := .oneOf branches :: before, groups := groups }
  | ',', (branches, before) :: groups =>
      .ok { r with previous := some c, branch := [],
                   groups := (r.branch.reverse :: branches, before) :: groups }
  | c, _ => .ok (r.push c [.char c])

def openNewClass (r : Reading) (previous : Char) (negated : Bool) : Reading :=
  { r with previous := some previous, openClass := some ⟨negated, [], false⟩ }

def finish (r : Reading) : Except Fault Pattern :=
  match r.openClass, r.groups with
  | some _, _ => .error .unclosedClass
  | none, _ :: _ => .error .unclosedGroup
  | none, [] => .ok r.branch.reverse

def read (r : Reading) : List Char → Except Fault Pattern
  | [] => r.finish
  | c :: cs =>
      match r.openClass with
      | some k =>
          match r.inClass k c with
          | .error f => .error f
          | .ok r => r.read cs
      | none =>
          match c, cs with
          | '[', '!' :: cs => (r.openNewClass '!' true).read cs
          | '[', '^' :: cs => (r.openNewClass '^' true).read cs
          | '[', cs => (r.openNewClass '[' false).read cs
          | '\\', [] => .error .danglingEscape
          | '\\', d :: cs => (r.push d [.char d]).read cs
          | '*', '*' :: cs =>
              if r.branch.isEmpty then
                match cs with
                | [] => (r.push '*' [.directoriesFirst]).finish
                | '/' :: cs => (r.push '/' [.directoriesFirst]).read cs
                | cs => (r.push '*' [.many, .many]).read cs
              else if r.mayOpenDirectories then
                match cs with
                | [] => (r.replaceLast '*' .directoriesLast).finish
                | '/' :: cs => (r.replaceLast '/' .directories).read cs
                | d :: cs =>
                    if (d = ',' ∨ d = '\x7d') ∧ ¬ r.groups.isEmpty then
                      (r.replaceLast '*' .directoriesLast).read (d :: cs)
                    else (r.push '*' [.many, .many]).read (d :: cs)
              else (r.push '*' [.many, .many]).read cs
          | c, cs =>
              match r.single c with
              | .error f => .error f
              | .ok r => r.read cs

end Reading

def Pattern.parse (text : String) : Except Error Pattern :=
  match Reading.empty.read text.toList with
  | .ok p => .ok p
  | .error f => .error ⟨text, f⟩

end ProviderManual.Glob
