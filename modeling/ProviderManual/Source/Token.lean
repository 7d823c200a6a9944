/-! A line end is a token where it ends a statement. -/

namespace ProviderManual.Source

inductive TokenKind where
  | word
  | keyword
  | int
  | float
  | imaginary
  | rune
  | interpreted
  | raw
  | symbol
  | newline
  | comment
  deriving DecidableEq, Repr

structure Token where
  kind : TokenKind
  text : String
  firstRow : Nat
  lastRow : Nat
  deriving DecidableEq, Repr

namespace Token

def isSymbol (t : Token) (s : String) : Bool :=
  t.kind = .symbol && t.text = s

def isKeyword (t : Token) (s : String) : Bool :=
  t.kind = .keyword && t.text = s

def keywords : List String :=
  ["break", "case", "chan", "const", "continue", "default", "defer", "else", "fallthrough", "for",
    "func", "go", "goto", "if", "import", "interface", "map", "package", "range", "return",
    "select", "struct", "switch", "type", "var"]

def longSymbols : List (List Char) :=
  ["<<=", ">>=", "&^=", "...", "&&", "||", "<-", "++", "--", "==", "!=", "<=", ">=", ":=", "+=",
    "-=", "*=", "/=", "%=", "&=", "|=", "^=", "<<", ">>", "&^"].map String.toList

def isDigit (c : Char) : Bool :=
  '0' ≤ c && c ≤ '9'

def isWordStart (c : Char) : Bool :=
  ('a' ≤ c && c ≤ 'z') || ('A' ≤ c && c ≤ 'Z') || c = '_' || 0x80 ≤ c.toNat

def isWordChar (c : Char) : Bool :=
  isWordStart c || isDigit c

def isSpace (c : Char) : Bool :=
  c = ' ' || ('\x09' ≤ c && c ≤ '\x0d')

def quotedLength (quote : Char) : List Char → Nat
  | [] => 0
  | '\\' :: _ :: cs => 2 + quotedLength quote cs
  | c :: cs => if c = quote then 1 else 1 + quotedLength quote cs

def rawLength : List Char → Nat
  | [] => 0
  | c :: cs => if c = '\x60' then 1 else 1 + rawLength cs

def blockCommentLength : List Char → Nat
  | [] => 0
  | '*' :: '/' :: _ => 2
  | _ :: cs => 1 + blockCommentLength cs

def numberLength (hex : Bool) (previous : Char) : List Char → Nat
  | [] => 0
  | c :: cs =>
      let exponent := if hex then previous = 'p' || previous = 'P'
        else previous = 'e' || previous = 'E'
      if isWordChar c || c = '.' || ((c = '+' || c = '-') && exponent) then
        1 + numberLength hex c cs
      else 0

def isHex : List Char → Bool
  | '0' :: 'x' :: _ | '0' :: 'X' :: _ => true
  | _ => false

def numberKind (spelling : List Char) : TokenKind :=
  if spelling.getLast? = some 'i' then .imaginary
  else if '.' ∈ spelling then .float
  else if isHex spelling then
    if 'p' ∈ spelling ∨ 'P' ∈ spelling then .float else .int
  else if 'e' ∈ spelling ∨ 'E' ∈ spelling then .float
  else .int

def measure (c : Char) (cs : List Char) : TokenKind × Nat :=
  if isWordStart c then
    let more := cs.takeWhile isWordChar
    (if String.ofList (c :: more) ∈ keywords then .keyword else .word, more.length)
  else if isDigit c || (c = '.' && cs.head?.any isDigit) then
    let length := numberLength (isHex (c :: cs)) c cs
    (numberKind (c :: cs.take length), length)
  else if c = '"' then (.interpreted, quotedLength '"' cs)
  else if c = '\'' then (.rune, quotedLength '\'' cs)
  else if c = '\x60' then (.raw, rawLength cs)
  else if c = '/' && cs.head? = some '/' then (.comment, (cs.takeWhile (· ≠ '\n')).length)
  else if c = '/' && cs.head? = some '*' then (.comment, 1 + blockCommentLength (cs.drop 1))
  else match longSymbols.find? (·.isPrefixOf (c :: cs)) with
    | some symbol => (.symbol, symbol.length - 1)
    | none => (.symbol, 0)

def endsStatement (before : Bool) (kind : TokenKind) (text : String) : Bool :=
  match kind with
  | .comment => before
  | .newline => false
  | .keyword => ["break", "continue", "fallthrough", "return"].contains text
  | .symbol => ["++", "--", ")", "]", "\x7d"].contains text
  | _ => true

def scan (row : Nat) (ending : Bool) (text : List Char) : List Token :=
  match text with
  | [] => if ending then [⟨.newline, "\n", row, row⟩] else []
  | c :: cs =>
      if c = '\n' then
        if ending then ⟨.newline, "\n", row, row⟩ :: scan (row + 1) false cs
        else scan (row + 1) false cs
      else if isSpace c then scan row ending cs
      else
        let (kind, more) := measure c cs
        let spelling := c :: cs.take more
        let last := row + spelling.count '\n'
        let token : Token := ⟨kind, String.ofList spelling, row, last⟩
        token :: scan last (endsStatement ending kind token.text) (cs.drop more)
termination_by text.length
decreasing_by all_goals simp only [List.length_drop, List.length_cons]; omega

def ofText (source : String) : List Token :=
  match source.toList with
  | '\ufeff' :: cs => scan 0 false cs
  | cs => scan 0 false cs

end Token

end ProviderManual.Source
