import ProviderManual.Template.Basic
import ProviderManual.Template.Chunk
import ProviderManual.Template.Token

namespace ProviderManual.Template

abbrev Reader := StateT (List Token) Option

namespace Reader

def next : Reader Token := fun ts =>
  match ts with
  | [] => none
  | t :: rest => some (t, rest)

def token? (t : Token) : Reader Bool := fun ts =>
  match ts with
  | [] => some (false, [])
  | u :: rest => if u = t then some (true, rest) else some (false, u :: rest)

def token (t : Token) : Reader Unit := do
  if ← token? t then pure () else failure

def sign? (s : String) : Reader Bool :=
  token? (.sign s)

def sign (s : String) : Reader Unit :=
  token (.sign s)

def word : Reader String := do
  match ← next with
  | .name s => return s
  | _ => failure

def repeatAtMost {α : Type} (p : Reader (Option α)) : Nat → Reader (List α)
  | 0 => failure
  | bound + 1 => do
      match ← p with
      | none => return []
      | some a => return a :: (← repeatAtMost p bound)

def gather {α : Type} (p : Reader (Option α)) : Reader (List α) := fun ts =>
  repeatAtMost p (ts.length + 1) ts

def commaClosed {α : Type} (p : Reader α) : Reader (List α) := do
  if ← sign? ")" then return []
  let first ← p
  let more ← gather do
    if ← sign? "," then return some (← p) else return none
  sign ")"
  return first :: more

def whole {α : Type} (p : Reader α) (ts : List Token) : Option α :=
  match p ts with
  | some (a, []) => some a
  | _ => none

end Reader

namespace Expr

open Reader

def ofWord : String → Expr
  | "true" | "True" => .bool true
  | "false" | "False" => .bool false
  | "none" | "None" => .absent
  | s => .name s

def primary (inner : Reader Expr) : Reader Expr := do
  match ← next with
  | .name s => return ofWord s
  | .int n => return .int n
  | .text s => return .text s
  | .sign "(" => do
      let x ← inner
      sign ")"
      return x
  | .sign "-" => do
      match ← next with
      | .int n => return .int (-n)
      | _ => failure
  | _ => failure

def attachment (inner : Reader Expr) : Reader (Option (Expr → Expr)) := do
  if ← sign? "." then
    let name ← word
    return some fun x => .member x name
  else if ← sign? "[" then
    let key ← inner
    sign "]"
    return some fun x => .item x key
  else if ← sign? "(" then
    let arguments ← commaClosed inner
    return some fun x => .call x arguments
  else return none

def filterStep (inner : Reader Expr) : Reader (Option (Expr → Expr)) := do
  if ← sign? "|" then
    let name ← word
    let arguments ← if ← sign? "(" then commaClosed inner else pure []
    return some fun x => .filter name x arguments
  else return none

def operand (inner : Reader Expr) : Reader Expr := do
  let x ← primary inner
  let attachments ← gather (attachment inner)
  let filters ← gather (filterStep inner)
  return (attachments ++ filters).foldl (fun x f => f x) x

def comparison? : Reader (Option Comparison) := do
  if ← sign? "==" then return some .equal
  else if ← sign? "!=" then return some .unequal
  else if ← sign? "<=" then return some .atMost
  else if ← sign? "<" then return some .less
  else if ← sign? ">=" then return some .atLeast
  else if ← sign? ">" then return some .greater
  else return none

def compared (inner : Reader Expr) : Reader Expr := do
  let x ← operand inner
  let more ← gather do
    match ← comparison? with
    | none => return none
    | some c => return some (c, ← operand inner)
  return more.foldl (fun x (c, y) => .compare c x y) x

def negated (inner : Reader Expr) : Reader Expr := do
  let nots ← gather do
    if ← token? (.name "not") then return some () else return none
  let x ← compared inner
  return nots.foldl (fun x _ => .not x) x

def joined (s : String) (join : Expr → Expr → Expr) (p : Reader Expr) : Reader Expr := do
  let x ← p
  let more ← gather do
    if ← token? (.name s) then return some (← p) else return none
  return more.foldl join x

def read : Nat → Reader Expr
  | 0 => failure
  | depth + 1 => joined "or" .either (joined "and" .both (negated (read depth)))

end Expr

def Reader.expr : Reader Expr := fun ts =>
  Expr.read (ts.length + 1) ts

inductive Piece where
  | text (s : String)
  | output (x : Expr)
  | ifTag (condition : Expr)
  | elifTag (condition : Expr)
  | elseTag
  | endIf
  | forTag (name : String) (items : Expr)
  | endFor
  | assign (name : String) (x : Expr)
  | defineTag (name : String) (parameters : List String)
  | endDefine
  deriving Repr

namespace Piece

open Reader

def statement : Reader Piece := do
  match ← word with
  | "if" => return ifTag (← expr)
  | "elif" => return elifTag (← expr)
  | "else" => return elseTag
  | "endif" => return endIf
  | "for" => do
      let name ← word
      token (.name "in")
      return forTag name (← expr)
  | "endfor" => return endFor
  | "set" => do
      let name ← word
      sign "="
      return assign name (← expr)
  | "macro" => do
      let name ← word
      sign "("
      return defineTag name (← commaClosed word)
  | "endmacro" => return endDefine
  | _ => failure

def ofChunk? : Chunk → Option (List Piece)
  | .text cs => some [text (String.ofList cs)]
  | .tag .comment _ _ _ => some []
  | .tag .output _ _ cs => do return [output (← whole expr (← Token.ofChars? cs))]
  | .tag .statement _ _ cs => do return [← whole statement (← Token.ofChars? cs)]

def ofChunks? : List Chunk → Option (List Piece)
  | [] => some []
  | c :: cs => do return (← ofChunk? c) ++ (← ofChunks? cs)

end Piece

inductive Open where
  | branch (earlier : List (Expr × List Node)) (condition : Expr)
  | lastBranch (earlier : List (Expr × List Node))
  | body (name : String) (items : Expr)
  | otherwise (name : String) (items : Expr) (body : List Node)
  | definition (name : String) (parameters : List String)

def Node.choices (earlier : List (Expr × List Node)) (last : List Node) : List Node :=
  earlier.foldl (fun no (condition, yes) => [.choice condition yes no]) last

/-- Nests pieces; `seen` holds the nodes of the innermost open statement, the last one first, and `outer`
the open statements, each with the nodes before it. -/
def nest (outer : List (Open × List Node)) (seen : List Node) : List Piece → Option (List Node)
  | [] => if outer.isEmpty then some seen.reverse else none
  | p :: ps =>
      match p, outer with
      | .text s, _ => nest outer (.text s :: seen) ps
      | .output x, _ => nest outer (.output x :: seen) ps
      | .assign name x, _ => nest outer (.assign name x :: seen) ps
      | .ifTag condition, _ => nest ((.branch [] condition, seen) :: outer) [] ps
      | .forTag name items, _ => nest ((.body name items, seen) :: outer) [] ps
      | .defineTag name parameters, _ =>
          nest ((.definition name parameters, seen) :: outer) [] ps
      | .elifTag condition, (.branch earlier first, before) :: outer =>
          nest ((.branch ((first, seen.reverse) :: earlier) condition, before) :: outer) [] ps
      | .elseTag, (.branch earlier first, before) :: outer =>
          nest ((.lastBranch ((first, seen.reverse) :: earlier), before) :: outer) [] ps
      | .elseTag, (.body name items, before) :: outer =>
          nest ((.otherwise name items seen.reverse, before) :: outer) [] ps
      | .endIf, (.branch earlier first, before) :: outer =>
          nest outer (Node.choices ((first, seen.reverse) :: earlier) [] ++ before) ps
      | .endIf, (.lastBranch earlier, before) :: outer =>
          nest outer (Node.choices earlier seen.reverse ++ before) ps
      | .endFor, (.body name items, before) :: outer =>
          nest outer (.loop name items seen.reverse [] :: before) ps
      | .endFor, (.otherwise name items body, before) :: outer =>
          nest outer (.loop name items body seen.reverse :: before) ps
      | .endDefine, (.definition name parameters, before) :: outer =>
          nest outer (.define name parameters seen.reverse :: before) ps
      | _, _ => none

def parse (source : String) : Option (List Node) := do
  nest [] [] (← Piece.ofChunks? (← Chunk.ofText? source))

end ProviderManual.Template
