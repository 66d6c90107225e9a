import ScriptSurface.ClassId

/-!
# Generic type expressions

A `TypeExpr` is a type as a declaration writes it: unknown, a plain class, an array, a class applied
to type arguments, or a type variable.

Whoever holds a type may ask whether another is *the same instance*, which is more than being built
alike.  Every node therefore carries a `Stamp`: types written down separately bear different
numbers, the unknown type and the universal base type are shared by all, and nodes made along the
way by substitution are the same instance as no other.  `TypeExpr.same` compares instances,
`TypeExpr.alike` compares shapes, and `TypeExpr.bare` forgets the stamps: `alike_iff` says that two
types are alike exactly when they are equal without their stamps.
-/

namespace ScriptSurface

/-- What tells two instances of one type apart. -/
inductive Stamp where
  /-- The one instance that everybody uses. -/
  | shared
  /-- An instance written down under a number of its own. -/
  | numbered (n : Nat)
  /-- An instance made along the way. -/
  | anonymous
deriving DecidableEq, Inhabited

/-- Whether two stamps mark one and the same instance. -/
def Stamp.same : Stamp → Stamp → Bool
  | shared, shared => true
  | numbered m, numbered n => m = n
  | _, _ => false

/-- A type as a declaration writes it. -/
inductive TypeExpr where
  /-- Nothing is known of the type. -/
  | unknown
  /-- A class without type arguments. -/
  | plain (cls : ClassId) (stamp : Stamp)
  /-- The arrays of a component type. -/
  | array (component : TypeExpr) (stamp : Stamp)
  /-- A class applied to type arguments. -/
  | applied (raw : ClassId) (args : List TypeExpr) (stamp : Stamp)
  /-- A type variable. -/
  | var (v : TypeVar) (stamp : Stamp)
deriving Inhabited

namespace TypeExpr

/-! ### Making types -/

/-- A class as a type; the universal base type has one shared instance. -/
def ofClass (stamp : Stamp) (c : ClassId) : TypeExpr :=
  if c = ClassId.object then .plain c .shared else .plain c stamp

/-- The universal base type. -/
def object : TypeExpr := ofClass .shared ClassId.object

/-- A class applied to arguments; without arguments it is the plain class. -/
def apply (stamp : Stamp) (raw : ClassId) (args : List TypeExpr) : TypeExpr :=
  if args.isEmpty then ofClass stamp raw else .applied raw args stamp

/-! ### Looking into types -/

/-- Whether nothing is known of the type. -/
def isUnknown : TypeExpr → Bool
  | unknown => true
  | _ => false

/-- The variable, if the type is one. -/
def asVar? : TypeExpr → Option TypeVar
  | var v _ => some v
  | _ => none

/-- The class of a plain or applied type. -/
def rawClass? : TypeExpr → Option ClassId
  | plain c _ => some c
  | applied raw _ _ => some raw
  | _ => none

/-- The component of an array type. -/
def component? : TypeExpr → Option TypeExpr
  | array t _ => some t
  | _ => none

/-- The type arguments. -/
def args : TypeExpr → List TypeExpr
  | applied _ ts _ => ts
  | _ => []

/-- The type argument at a position; unknown when there is none. -/
def arg (t : TypeExpr) (i : Nat) : TypeExpr := t.args[i]?.getD unknown

mutual

/-- Whether a type variable occurs anywhere in the type. -/
def hasVars : TypeExpr → Bool
  | unknown => false
  | plain _ _ => false
  | array t _ => hasVars t
  | applied _ ts _ => anyHasVars ts
  | var _ _ => true

/-- Whether a type variable occurs anywhere in one of the types. -/
def anyHasVars : List TypeExpr → Bool
  | [] => false
  | t :: ts => hasVars t || anyHasVars ts

end

/-! ### Instances and shapes -/

/-- Whether two types are one and the same instance. -/
def same : TypeExpr → TypeExpr → Bool
  | unknown, unknown => true
  | plain c s, plain d t => c = d && s.same t
  | array _ s, array _ t => s.same t
  | applied _ _ s, applied _ _ t => s.same t
  | var v s, var w t => v = w && s.same t
  | _, _ => false

mutual

/-- Whether two types are built alike, whatever instances they are. -/
def alike : TypeExpr → TypeExpr → Bool
  | unknown, unknown => true
  | plain c _, plain d _ => c = d
  | array t _, array u _ => alike t u
  | applied c ts _, applied d us _ => c = d && allAlike ts us
  | var v _, var w _ => v = w
  | _, _ => false

/-- Whether two lists hold types that are built alike, one by one. -/
def allAlike : List TypeExpr → List TypeExpr → Bool
  | [], [] => true
  | t :: ts, u :: us => alike t u && allAlike ts us
  | _, _ => false

end

mutual

/-- The type with every stamp forgotten. -/
def bare : TypeExpr → TypeExpr
  | unknown => unknown
  | plain c _ => plain c .anonymous
  | array t _ => array (bare t) .anonymous
  | applied raw ts _ => applied raw (bareAll ts) .anonymous
  | var v _ => var v .anonymous

/-- The types with every stamp forgotten. -/
def bareAll : List TypeExpr → List TypeExpr
  | [] => []
  | t :: ts => bare t :: bareAll ts

end

/-- Induction on types; at an applied type, all arguments have the property. -/
@[elab_as_elim]
theorem induct {P : TypeExpr → Prop} (unknown : P unknown) (plain : ∀ c s, P (plain c s))
    (array : ∀ t s, P t → P (array t s))
    (applied : ∀ raw ts s, (∀ t ∈ ts, P t) → P (applied raw ts s)) (var : ∀ v s, P (var v s))
    (t : TypeExpr) : P t := by
  refine TypeExpr.rec (motive_1 := P) (motive_2 := fun ts => ∀ t ∈ ts, P t)
    unknown plain (fun t s => array t s) (fun raw ts s => applied raw ts s) var
    (fun _ h => by cases h) (fun t ts ht hts u hu => ?_) t
  rcases List.mem_cons.1 hu with rfl | hu
  · exact ht
  · exact hts u hu

mutual

theorem alike_iff (t u : TypeExpr) : alike t u = true ↔ bare t = bare u := by
  cases t <;> cases u <;>
    simp [alike, bare, alike_iff, allAlike_iff]

theorem allAlike_iff (ts us : List TypeExpr) :
    allAlike ts us = true ↔ bareAll ts = bareAll us := by
  cases ts <;> cases us <;>
    simp [allAlike, bareAll, alike_iff, allAlike_iff]

end

end TypeExpr

end ScriptSurface
