import Mathlib.Data.List.Chain
import Mathlib.Data.List.DropRight
import Mathlib.Data.List.Forall2
import Mathlib.Data.List.TakeDrop
import ProviderManual.Source.Doc

/-! The text of a group of comments. -/

namespace ProviderManual.Source

open ProviderManual.Text

inductive Comment where
  | line (text : List Char) (oneLine : '\n' ∉ text)
  | block (body : List Char)

def Comment.source : Comment → String
  | .line text _ => String.ofList ('/' :: '/' :: text)
  | .block body => String.ofList ('/' :: '*' :: body ++ ['*', '/'])

/-- A line comment for a tool starts with a word that tools know, or a tool's name and a verb. -/
inductive Directive : List Char → Prop where
  | word {word : String} {rest : List Char} : word ∈ ["line ", "extern ", "export "] →
      Directive (word.toList ++ rest)
  | tool {name rest : List Char} {verb : Char} : name ≠ [] → (∀ c ∈ name, isToolChar c = true) →
      isToolChar verb = true → Directive (name ++ ':' :: verb :: rest)

/-- The lines of a comment: none of a directive; a line comment loses one space in front. -/
inductive HasLines : Comment → List (List Char) → Prop where
  | directive {text : List Char} {oneLine : '\n' ∉ text} : Directive text →
      HasLines (.line text oneLine) []
  | spaced {text : List Char} {oneLine : '\n' ∉ ' ' :: text} : ¬ Directive (' ' :: text) →
      HasLines (.line (' ' :: text) oneLine) [text]
  | unspaced {text : List Char} {oneLine : '\n' ∉ text} : ¬ Directive text →
      text.head? ≠ some ' ' → HasLines (.line text oneLine) [text]
  | block {body : List Char} : HasLines (.block body) (pieces '\n' body)

section Directives

variable {start name rest text cs : List Char} {verb : Char}

end Directives

section Comments

variable {comment : Comment} {body : List Char} {lines : List (List Char)}

theorem HasLines.newline_not_mem (h : HasLines comment lines) : ∀ line ∈ lines, '\n' ∉ line := by
  cases h with
  | directive => exact nofun
  | @spaced text oneLine => simpa using fun h => oneLine (List.mem_cons_of_mem _ h)
  | @unspaced text oneLine => simpa using oneLine
  | block => exact fun line hline => not_mem_of_mem_pieces hline

end Comments

section Lines

variable {c : Char} {line cs : List Char} {lines : List (List Char)} {afterBlank : Bool}

end Lines

section Text

variable {lines : List (List Char)}

example : docText ["// go:build linux", "//", "//go:build linux", "//"] = "go:build linux\n" := by
  decide +kernel

end Text

end ProviderManual.Source
