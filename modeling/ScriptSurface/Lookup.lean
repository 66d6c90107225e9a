/-!
# Outcomes of using a member

Reading, writing or calling a member has one of three outcomes: the member has no such capability
(`absent`), it has it and produced null (`null`), or it has it and produced a value.  Absence and
null are kept apart, so a caller can tell "there is no such thing" from "there is, and it is empty".
-/

namespace ScriptSurface

/-- What using a member produced. -/
inductive Lookup (α : Type) where
  /-- There is no such capability. -/
  | absent
  /-- The capability exists; its value is null. -/
  | null
  /-- The capability exists and produced a value. -/
  | value (a : α)
deriving DecidableEq, Inhabited

namespace Lookup

variable {α β : Type}

/-- A nullable value as the outcome of a capability that exists. -/
def present : Option α → Lookup α
  | some a => value a
  | none => null

/-- Whether the capability does not exist. -/
def isAbsent : Lookup α → Bool
  | absent => true
  | _ => false

/-- Whether the capability exists, with a value or null. -/
def isPresent (l : Lookup α) : Bool := !l.isAbsent

/-- Whether the capability exists and produced null. -/
def isNull : Lookup α → Bool
  | null => true
  | _ => false

/-- The value, if one was produced. -/
def value? : Lookup α → Option α
  | value a => some a
  | _ => none

/-- The outcome as nested options: absence is the outer `none`, null the inner one. -/
def toOption : Lookup α → Option (Option α)
  | absent => none
  | null => some none
  | value a => some (some a)

/-- Applies a function to the value, if one was produced. -/
def map (f : α → β) : Lookup α → Lookup β
  | absent => absent
  | null => null
  | value a => value (f a)

/-- Falls back on another outcome when this one is absent; null does not fall through. -/
def orElse (l : Lookup α) (fallback : Unit → Lookup α) : Lookup α :=
  match l with
  | absent => fallback ()
  | l => l

theorem present_ne_absent (a : Option α) : present a ≠ absent := by cases a <;> simp [present]

end Lookup

end ScriptSurface
