import ScriptSurface.Assoc
import ScriptSurface.HostTypes
import ScriptSurface.TypeExpr.Substitution

/-!
# What a class's ancestors' variables stand for

A class fixes the type variables of its generic ancestors.  With

    class A<Ta>          interface B<Tb>
    class C<Tc> extends A<Tc>
    class D<Td> extends C<Td> implements B<A<Td>>

the mapping of `D` sends `Tc` to `Td`, `Tb` to `A<Td>` and `Ta` to `Td`: every variable of an
ancestor is sent straight to a type in the terms of `D`, so one substitution is enough.

The mapping of a class is composed of its *direct* bindings, read off its own declared supertypes,
and of the mappings of its supertypes with the direct bindings applied to their targets.  What
supertypes say is put down in order, interfaces first and the superclass after them, and the direct
bindings last; what is put down later wins.
-/

namespace ScriptSurface

/-- What type variables stand for, kept by size; an empty mapping may be the shared one. -/
inductive Mapping where
  /-- No variable is bound. -/
  | empty (stamp : Stamp)
  /-- One variable is bound. -/
  | single (v : TypeVar) (target : TypeExpr)
  /-- Several variables are bound. -/
  | many (table : Assoc TypeVar TypeExpr)
deriving Inhabited

namespace Mapping

/-- The empty mapping that everybody shares. -/
def shared : Mapping := .empty .shared

/-- The mapping of a table, kept by its size. -/
def ofTable (t : Assoc TypeVar TypeExpr) : Mapping :=
  match t.toList with
  | [] => .empty .anonymous
  | [(v, target)] => .single v target
  | _ => .many t

/-- The mapping, or the shared one in place of an empty one. -/
def share : Mapping → Mapping
  | .empty _ => shared
  | m => m

/-- The bound variables with their targets. -/
def toList : Mapping → List (TypeVar × TypeExpr)
  | .empty _ => []
  | .single v target => [(v, target)]
  | .many t => t.toList

/-- What a variable stands for. -/
def find? : Mapping → TypeVar → Option TypeExpr
  | .empty _, _ => none
  | .single w target, v => if w = v then some target else none
  | .many t, v => t.find? v

/-- The number of bound variables. -/
def size : Mapping → Nat
  | .empty _ => 0
  | .single _ _ => 1
  | .many t => t.size

/-- Whether no variable is bound. -/
def isEmpty : Mapping → Bool
  | .empty _ => true
  | _ => false

/-- Whether this is the empty mapping that everybody shares. -/
def isShared : Mapping → Bool
  | .empty s => s.same .shared
  | _ => false

/-- The bound variables with their targets, by owner and then position. -/
def sortedList (m : Mapping) : List (TypeVar × TypeExpr) :=
  m.toList.mergeSort fun a b => (a.1.order b.1).isLE

/-! ### Composition -/

/-- Adds the bindings that one declared supertype gives: each parameter of its class is bound to the
argument at its position, as far as both go. -/
def addDirect (h : HostTypes) (t : Assoc TypeVar TypeExpr) :
    TypeExpr → Assoc TypeVar TypeExpr
  | .applied raw args _ =>
    (args.take (h.typeParams raw).length).zipIdx.foldl
      (fun t (arg, i) => t.put (.at raw i) arg) t
  | _ => t

/-- The bindings a class's own declared supertypes give, the superclass first. -/
def direct (h : HostTypes) (c : ClassId) : Assoc TypeVar TypeExpr :=
  ((h.genericSuperclass c).toList ++ h.genericInterfaces c).foldl (addDirect h) ∅

/-- Adds what a supertype's mapping says, with direct bindings applied to its targets. -/
def addInherited (direct : Assoc TypeVar TypeExpr) (limit : Nat) (t : Assoc TypeVar TypeExpr)
    (inherited : Mapping) : Assoc TypeVar TypeExpr :=
  inherited.toList.foldl (fun t (v, target) => t.put v (target.substitute direct.find? limit)) t

/-- The bindings of a class, from its direct ones and the mappings of its supertypes in order. -/
def compose (direct : Assoc TypeVar TypeExpr) (limit : Nat) (inherited : List Mapping) :
    Assoc TypeVar TypeExpr :=
  direct.toList.foldl (fun t (v, target) => t.put v target)
    (inherited.foldl (addInherited direct limit) ∅)

/-- The parts of a mapping's targets that lie too deep to substitute in. -/
def beyond (limit : Nat) (m : Mapping) : List TypeExpr :=
  m.toList.flatMap fun (_, target) => target.beyond limit 0

/-- Whether a class has the empty mapping whatever it declares: the universal base type, primitives
and arrays do. -/
def isTrivial (h : HostTypes) (c : ClassId) : Bool :=
  c = ClassId.object || c.isPrimitive || h.isArray c

end Mapping

end ScriptSurface
