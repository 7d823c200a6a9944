namespace ProviderManual.Template

inductive Token where
  | name (s : String)
  | int (n : Nat)
  | text (s : String)
  | sign (s : String)
  deriving DecidableEq, Repr

namespace Token

def isDigit (c : Char) : Bool :=
  '0' ≤ c && c ≤ '9'

def isNameStart (c : Char) : Bool :=
  ('a' ≤ c && c ≤ 'z') || ('A' ≤ c && c ≤ 'Z') || c = '_'

def isNameChar (c : Char) : Bool :=
  isNameStart c || isDigit c

def isSpace (c : Char) : Bool :=
  c = ' ' || c = '\t' || c = '\n' || c = '\r' || c = '\x0c'

def decimal (digits : List Char) : Nat :=
  digits.foldl (fun n c => 10 * n + (c.toNat - '0'.toNat)) 0

def escaped? : Char → Option Char
  | 'n' => some '\n'
  | 'r' => some '\r'
  | 't' => some '\t'
  | 'b' => some '\x08'
  | 'f' => some '\x0c'
  | '"' => some '"'
  | '\'' => some '\''
  | '\\' => some '\\'
  | '/' => some '/'
  | _ => none

def quoted? (quote : Char) : List Char → Option (List Char × List Char)
  | [] => none
  | [c] => if c = quote then some ([], []) else none
  | c :: d :: cs =>
      if c = quote then some ([], d :: cs)
      else if c = '\\' then
        match escaped? d with
        | none => none
        | some e => (quoted? quote cs).map fun (inner, rest) => (e :: inner, rest)
      else (quoted? quote (d :: cs)).map fun (inner, rest) => (c :: inner, rest)

def longSigns : List (Char × Char) :=
  [('=', '='), ('!', '='), ('<', '='), ('>', '=')]

def signs : List Char :=
  ['.', ',', '(', ')', '[', ']', '|', '=', '<', '>', '-']

theorem length_of_quoted? {quote : Char} {cs inner rest : List Char}
    (h : quoted? quote cs = some (inner, rest)) : rest.length < cs.length := by
  fun_induction quoted? quote cs generalizing inner with
  | case1 => simp at h
  | case2 => simp_all
  | case3 => simp at h
  | case4 => simp_all
  | case5 => simp at h
  | case6 _ _ _ _ _ ih =>
      obtain ⟨⟨inner', rest'⟩, hq, heq⟩ := Option.map_eq_some_iff.1 h
      cases heq
      have := ih hq
      simp only [List.length_cons]
      omega
  | case7 _ _ _ _ _ ih =>
      obtain ⟨⟨inner', rest'⟩, hq, heq⟩ := Option.map_eq_some_iff.1 h
      cases heq
      have := ih hq
      simp only [List.length_cons] at this ⊢
      omega

def ofChars? : List Char → Option (List Token)
  | [] => some []
  | c :: cs =>
      if isSpace c then ofChars? cs
      else if isNameStart c then
        (ofChars? (cs.dropWhile isNameChar)).map
          (name (String.ofList (c :: cs.takeWhile isNameChar)) :: ·)
      else if isDigit c then
        (ofChars? (cs.dropWhile isDigit)).map (int (decimal (c :: cs.takeWhile isDigit)) :: ·)
      else if c = '"' ∨ c = '\'' then
        match _h : quoted? c cs with
        | none => none
        | some (s, rest) => (ofChars? rest).map (text (String.ofList s) :: ·)
      else
        match cs with
        | d :: rest =>
            if (c, d) ∈ longSigns then (ofChars? rest).map (sign (String.ofList [c, d]) :: ·)
            else if c ∈ signs then (ofChars? (d :: rest)).map (sign (String.ofList [c]) :: ·)
            else none
        | [] => if c ∈ signs then some [sign (String.ofList [c])] else none
termination_by cs => cs.length
decreasing_by
  · simp
  · simp only [List.length_cons]
    have := (List.dropWhile_sublist isNameChar (l := cs)).length_le
    omega
  · simp only [List.length_cons]
    have := (List.dropWhile_sublist isDigit (l := cs)).length_le
    omega
  · have := length_of_quoted? _h
    simp only [List.length_cons]
    omega
  · simp only [List.length_cons]; omega
  · simp only [List.length_cons]; omega

end Token

end ProviderManual.Template
