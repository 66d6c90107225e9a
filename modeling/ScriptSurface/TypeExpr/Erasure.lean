import ScriptSurface.TypeExpr

/-!
# Erasure

The erasure of a type is the class that stands for it where type arguments do not exist: a plain
class is its own erasure, an applied class erases to the raw class, a variable to the erasure of its
bound, and an array to the array class of its component's erasure.  Nothing known, or a variable
nobody declares, erases to the universal base type.

Asking for an array class may register it, so erasure runs in the monad of whoever answers that.
Bounds are followed at most `TypeVar.count` times: a longer chain would meet a variable twice.
-/

namespace ScriptSurface

/-- The number of type variables there can be. -/
def TypeVar.count : Nat := 0x1000000000000

namespace TypeExpr

variable {m : Type → Type} [Monad m]

/-- The erasure of a type, given the array classes and the erasures of variables. -/
def eraseWith (arrayClass : ClassId → m ClassId) (ofVar : TypeVar → m ClassId) :
    TypeExpr → m ClassId
  | unknown => pure ClassId.object
  | plain c _ => pure c
  | array t _ => eraseWith arrayClass ofVar t >>= arrayClass
  | applied raw _ _ => pure raw
  | var v _ => ofVar v

/-- The erasure of a variable through at most so many bounds. -/
def eraseVar (arrayClass : ClassId → m ClassId) (boundOf : TypeVar → Option TypeExpr) :
    Nat → TypeVar → m ClassId
  | 0, _ => pure ClassId.object
  | n + 1, v =>
    match boundOf v with
    | some bound => eraseWith arrayClass (eraseVar arrayClass boundOf n) bound
    | none => pure ClassId.object

/-- The erasure of a type, given the array classes and the bounds of variables. -/
def erase (arrayClass : ClassId → m ClassId) (boundOf : TypeVar → Option TypeExpr)
    (t : TypeExpr) : m ClassId :=
  eraseWith arrayClass (eraseVar arrayClass boundOf TypeVar.count) t

/-- The class under which a type is first recorded, before any bound can be looked up. -/
def provisionalErasure (t : TypeExpr) : ClassId := t.rawClass?.getD ClassId.object

end TypeExpr

end ScriptSurface
