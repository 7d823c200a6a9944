import Mathlib.Data.List.Chain
import Mathlib.Data.List.Forall2
import ProviderManual.Source.Lower

/-! Which comments document a function. The rows of the nodes need not be in order for this. -/

namespace ProviderManual.Source

def lastCodeRow (nodes : List TopNode) : Option Nat :=
  (nodes.filter (·.tree.kind ≠ .comment)).getLast?.map (·.lastRow)

def Adjoins (a b : TopNode) : Prop :=
  b.firstRow ≤ a.lastRow + 1

/-- The last of the nodes are comments that adjoin one another, and none of them starts on the row
on which the code before them ends. -/
structure CommentRun (nodes run : List TopNode) : Prop where
  suffix : run <:+ nodes
  comments : ∀ c ∈ run, c.tree.kind = .comment
  apart : ∀ c ∈ run, lastCodeRow nodes ≠ some c.firstRow
  adjoining : run.IsChain Adjoins

section Runs

variable {nodes run group : List TopNode} {c node : TopNode}

theorem CommentRun.nil (nodes : List TopNode) : CommentRun nodes [] where
  suffix := List.nil_suffix
  comments := nofun
  apart := nofun
  adjoining := .nil

end Runs

section Functions

variable {before nodes group : List TopNode} {node : TopNode} {row i : Nat}
  {p q : List TopNode × TopNode}

example :
    (functions [⟨.leaf .comment "// a", 0, 0⟩, ⟨.branch .functionDeclaration [], 1, 1⟩,
      ⟨.leaf .comment "// beside", 1, 1⟩, ⟨.leaf .comment "// b", 2, 2⟩,
      ⟨.branch .functionDeclaration [], 3, 3⟩]).map (·.doc) = ["a\n", "b\n"] := by
  decide +kernel

end Functions

end ProviderManual.Source
