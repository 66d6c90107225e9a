/-!
# Failures of a member call

Absence and null are outcomes, not failures.  A use of a member fails when it would write what is
read-only, when no overload takes the arguments, or when the host raises while it runs the call.
Each failure names the type whose members were asked and the member; one raised by the host also
carries the host's cause.
-/

namespace ScriptSurface

/-- Why using a member failed; `ε` is what the host raises. -/
inductive Failure (ε : Type) where
  /-- A write to a final field or to a property without a setter. -/
  | immutableWrite (owner member : String)
  /-- No overload accepts the shape of the arguments, given here as it is shown. -/
  | notApplicable (owner member shape : String)
  /-- The host raised. -/
  | invocation (owner member : String) (cause : ε)
deriving DecidableEq

namespace Failure

variable {ε : Type}

/-- The member the failure is about. -/
def member : Failure ε → String
  | immutableWrite _ member => member
  | notApplicable _ member _ => member
  | invocation _ member _ => member

/-- What the host raised, if it did. -/
def cause? : Failure ε → Option ε
  | invocation _ _ cause => some cause
  | _ => none

/-- Whether a write was refused. -/
def isImmutableWrite : Failure ε → Bool
  | immutableWrite .. => true
  | _ => false

/-- Whether no overload was applicable. -/
def isNotApplicable : Failure ε → Bool
  | notApplicable .. => true
  | _ => false

/-- A member as messages show it: the type, a dot and the name. -/
def path (owner member : String) : String := owner ++ "." ++ member

/-- The failure in words, with the host's causes shown by `text`. -/
def message (text : ε → String) : Failure ε → String
  | immutableWrite owner member =>
    "cannot assign to read-only member `" ++ member ++ "` of `" ++ owner ++ "`"
  | notApplicable owner member shape =>
    "no overload of `" ++ path owner member ++ "` is applicable to " ++ shape
  | invocation owner member cause =>
    "host call `" ++ path owner member ++ "` failed: " ++ text cause

end Failure

end ScriptSurface
