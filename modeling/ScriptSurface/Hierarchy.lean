/-!
# Breadth-first walks

`breadthFirst next n start` lists what is reached from the start by steps of `next`, level by level:
first the start, then all that is one step away in the order of those it is a step from, and so on,
through at most `n` levels.  What is reached in several ways is listed for each of them.

This is the order of a queue from which each node is taken in turn and to whose end its successors
are added.
-/

namespace ScriptSurface

variable {α : Type}

/-- The nodes of a level and of the levels after it. -/
def levelsFrom (next : α → List α) : Nat → List α → List α
  | 0, _ => []
  | n + 1, level =>
    if level.isEmpty then [] else level ++ levelsFrom next n (level.flatMap next)

/-- What is reached from a node, level by level. -/
def breadthFirst (next : α → List α) (n : Nat) (start : α) : List α := levelsFrom next n [start]

end ScriptSurface
