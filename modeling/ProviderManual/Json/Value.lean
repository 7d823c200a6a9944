namespace ProviderManual.Json

inductive Value where
  | null
  | bool (b : Bool)
  | int (n : Int)
  | string (s : String)
  | array (items : List Value)
  | object (members : List (String × Value))
  deriving Repr, Inhabited

def unicodeEscape (n : Nat) : List Char :=
  let digits := Nat.toDigits 16 n
  ['\\', 'u'] ++ List.replicate (4 - digits.length) '0' ++ digits

def escapeChar (c : Char) : List Char :=
  match c with
  | '"' => ['\\', '"']
  | '\\' => ['\\', '\\']
  | '\x08' => ['\\', 'b']
  | '\x0c' => ['\\', 'f']
  | '\n' => ['\\', 'n']
  | '\r' => ['\\', 'r']
  | '\t' => ['\\', 't']
  | c => if c.toNat < 0x20 then unicodeEscape c.toNat else [c]

def stringText (s : String) : String :=
  String.ofList ('"' :: s.toList.flatMap escapeChar ++ ['"'])

def lineBreak (level : Nat) : String :=
  String.ofList ('\n' :: List.replicate (2 * level) ' ')

mutual

def Value.text (level : Nat) : Value → String
  | .null => "null"
  | .bool true => "true"
  | .bool false => "false"
  | .int n => toString n
  | .string s => stringText s
  | .array [] => "[]"
  | .array (v :: vs) =>
      "[" ++ lineBreak (level + 1) ++ v.text (level + 1) ++ itemsText (level + 1) vs
        ++ lineBreak level ++ "]"
  | .object [] => "\x7b\x7d"
  | .object ((k, v) :: ms) =>
      "\x7b" ++ lineBreak (level + 1) ++ stringText k ++ ": " ++ v.text (level + 1)
        ++ membersText (level + 1) ms ++ lineBreak level ++ "\x7d"

def itemsText (level : Nat) : List Value → String
  | [] => ""
  | v :: vs => "," ++ lineBreak level ++ v.text level ++ itemsText level vs

def membersText (level : Nat) : List (String × Value) → String
  | [] => ""
  | (k, v) :: ms =>
      "," ++ lineBreak level ++ stringText k ++ ": " ++ v.text level ++ membersText level ms

end

def Value.pretty (v : Value) : String :=
  v.text 0

namespace Value

def member? (name : String) : Value → Option Value
  | object members => (members.find? (·.1 = name)).map Prod.snd
  | _ => none

def string? : Value → Option String
  | string s => some s
  | _ => none

def bool? : Value → Option Bool
  | bool b => some b
  | _ => none

def int? : Value → Option Int
  | int n => some n
  | _ => none

end Value

end ProviderManual.Json
