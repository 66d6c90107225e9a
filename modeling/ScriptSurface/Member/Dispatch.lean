import ScriptSurface.Member.Slot

/-!
# Dispatch

A call is dispatched by its signature.  The overload with exactly that signature is chosen if
scripts can call it; else the first overload that scripts can call and that accepts the signature.
What the search among overloads ends with, even with nothing, is remembered in a `Memo`, and
the search is not repeated.
-/

namespace ScriptSurface

/-- How an overload, or none, was chosen. -/
inductive Route where
  /-- It has exactly the signature of the call. -/
  | exact
  /-- An earlier search ended so. -/
  | remembered
  /-- A search that asked of so many overloads whether they accept the call ended so. -/
  | searched (asked : Nat)
deriving DecidableEq, Inhabited

/-- What a call was dispatched to. -/
structure Resolution where
  /-- The overload that was chosen. -/
  binding : Option Binding
  /-- How it was chosen. -/
  route : Route
deriving Inhabited

/-- What searches ended with, by signature of the call. -/
abbrev Memo := Assoc Signature (Option Binding)

namespace Slot

/-- The overload with exactly the given signature, if scripts can call it. -/
def exactMatch? (slot : Slot) (s : Signature) : Option Binding :=
  (slot.overloads.find? s).filter Binding.isVisible

/-- The first of some overloads that accepts a signature. -/
def firstAccepting? (accepts : Signature → Signature → Bool) (s : Signature)
    (candidates : List Binding) : Option Binding :=
  candidates.find? fun b => accepts b.signature s

/-- How many of some overloads are asked before one accepts a signature, that one included. -/
def countAsked (accepts : Signature → Signature → Bool) (s : Signature) : List Binding → Nat
  | [] => 0
  | b :: rest => if accepts b.signature s then 1 else 1 + countAsked accepts s rest

/-- Dispatches a call. -/
def resolve (accepts : Signature → Signature → Bool) (slot : Slot) (s : Signature) :
    StateM Memo Resolution := fun memo =>
  match slot.exactMatch? s with
  | some b => (⟨some b, .exact⟩, memo)
  | none =>
    match memo.find? s with
    | some found => (⟨found, .remembered⟩, memo)
    | none =>
      let found := firstAccepting? accepts s slot.visible
      (⟨found, .searched (countAsked accepts s slot.visible)⟩, memo.put s found)

end Slot

end ScriptSurface
