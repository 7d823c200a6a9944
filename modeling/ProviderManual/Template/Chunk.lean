import ProviderManual.Text.Pieces

/-! A template cut into text and tags, without the layout around statements and comments. -/

namespace ProviderManual.Template

inductive Tag where
  | comment
  | output
  | statement
  deriving DecidableEq, Repr

namespace Tag

def mark : Tag → Char
  | comment => '#'
  | output => '\x7b'
  | statement => '%'

def closingMark : Tag → Char
  | output => '\x7d'
  | tag => tag.mark

def ofMark? : Char → Option Tag
  | '#' => some comment
  | '\x7b' => some output
  | '%' => some statement
  | _ => none

end Tag

inductive Margin where
  | usual
  | keep
  | strip
  deriving DecidableEq, Repr

inductive Chunk where
  | text (cs : List Char)
  | tag (tag : Tag) (before after : Margin) (inside : List Char)
  deriving DecidableEq, Repr

namespace Chunk

def margin : List Char → Margin × List Char
  | '-' :: cs => (.strip, cs)
  | '+' :: cs => (.keep, cs)
  | cs => (.usual, cs)

def ofTag (kind : Tag) (inside : List Char) : Chunk :=
  let (before, cs) := margin inside
  let (after, cs) := margin cs.reverse
  .tag kind before after cs.reverse

inductive Place where
  | text
  | tag (tag : Tag)
  | quoted (tag : Tag) (quote : Char)
  deriving DecidableEq, Repr

def cut (place : Place) (seen : List Char) : List Char → Option (List Chunk)
  | [] =>
      match place with
      | .text => some [text seen.reverse]
      | _ => none
  | [c] =>
      match place with
      | .text => some [text (c :: seen).reverse]
      | _ => none
  | c :: d :: cs =>
      match place with
      | .text =>
          match c, Tag.ofMark? d with
          | '\x7b', some kind => (cut (.tag kind) [] cs).map (text seen.reverse :: ·)
          | _, _ => cut .text (c :: seen) (d :: cs)
      | .tag kind =>
          if c = kind.closingMark ∧ d = '\x7d' then
            (cut .text [] cs).map (ofTag kind seen.reverse :: ·)
          else if kind ≠ .comment ∧ (c = '"' ∨ c = '\'') then
            cut (.quoted kind c) (c :: seen) (d :: cs)
          else cut (.tag kind) (c :: seen) (d :: cs)
      | .quoted kind quote =>
          if c = '\\' then cut (.quoted kind quote) (d :: c :: seen) cs
          else if c = quote then cut (.tag kind) (c :: seen) (d :: cs)
          else cut (.quoted kind quote) (c :: seen) (d :: cs)

def trimIndent (atStart : Bool) (cs : List Char) : List Char :=
  let indent := cs.reverse.takeWhile fun c => Text.isBlank c && c ≠ '\n'
  let rest := cs.reverse.dropWhile fun c => Text.isBlank c && c ≠ '\n'
  match rest with
  | [] => if atStart then [] else indent.reverse
  | '\n' :: _ => rest.reverse
  | _ => cs

def dropLineEnd : List Char → List Char
  | '\r' :: '\n' :: cs => cs
  | '\r' :: cs => cs
  | '\n' :: cs => cs
  | cs => cs

def leaveBefore (atStart : Bool) (cs : List Char) : List Chunk → List Char
  | tag kind before _ _ :: _ =>
      match before, kind with
      | .strip, _ => Text.trimEnd cs
      | .keep, _ | .usual, .output => cs
      | .usual, _ => trimIndent atStart cs
  | _ => cs

def leaveAfter (previous : Option Chunk) (cs : List Char) : List Char :=
  match previous with
  | some (tag kind _ after _) =>
      match after, kind with
      | .strip, _ => Text.trimStart cs
      | .keep, _ | .usual, .output => cs
      | .usual, _ => dropLineEnd cs
  | _ => cs

def settle (previous : Option Chunk) : List Chunk → List Chunk
  | [] => []
  | text cs :: rest =>
      text (leaveAfter previous (leaveBefore previous.isNone cs rest))
        :: settle (some (text cs)) rest
  | c :: rest => c :: settle (some c) rest

def dropFinalLineEnd (cs : List Char) : List Char :=
  let dropFirst (mark : Char) : List Char → List Char
    | [] => []
    | c :: rest => if c = mark then rest else c :: rest
  (dropFirst '\r' (dropFirst '\n' cs.reverse)).reverse

def ofText? (source : String) : Option (List Chunk) :=
  (cut .text [] (dropFinalLineEnd source.toList)).map (settle none)

end Chunk

end ProviderManual.Template
