/-!
# Orders

Numbers, texts and lists are compared here without regard to any order that another library may
attach to their types.  Texts are ordered by the code points of their characters, and lists like
words: by the first place where they differ, a shorter one before its continuations.
-/

namespace ScriptSurface.Order

/-- Compares numbers. -/
def numbers (a b : Nat) : Ordering := if a < b then .lt else if a = b then .eq else .gt

/-- Compares lists like words, by a comparison of their elements. -/
def lists {α : Type} (elements : α → α → Ordering) : List α → List α → Ordering
  | [], [] => .eq
  | [], _ :: _ => .lt
  | _ :: _, [] => .gt
  | a :: as, b :: bs => (elements a b).then (lists elements as bs)

/-- Compares texts by their code points. -/
def texts (a b : String) : Ordering :=
  lists (fun c d => numbers c.toNat d.toNat) a.toList b.toList

/-- The elements in ascending order of a text, elements with equal texts in the order given. -/
def sortByText {α : Type} (text : α → String) (as : List α) : List α :=
  as.mergeSort fun a b => (texts (text a) (text b)).isLE

end ScriptSurface.Order
