import ScriptSurface.Declaration
import ScriptSurface.TypeExpr.Spelling

/-!
# What a host reports about its types

`HostTypes` is the read-only view of a host's types on which everything else rests: names, kinds,
supertypes, generic declarations and declared members.  A host with reflection can answer from it,
and one without from a table of registered declarations.

The view says nothing about array classes, since asking for one may create it.
-/

namespace ScriptSurface

/-- The number of class ids there can be. -/
def ClassId.count : Nat := 0x100000000

/-- What a host reports about its types. -/
structure HostTypes where
  /-- What sort of type a class is. -/
  kind : ClassId → Kind
  /-- The full name of a class. -/
  name : ClassId → String
  /-- The direct superclass; interfaces, primitives and the universal base type have none. -/
  superclass : ClassId → Option ClassId
  /-- The interfaces declared directly, in declaration order. -/
  interfaces : ClassId → List ClassId
  /-- The type parameters a class declares. -/
  typeParams : ClassId → List TypeParam
  /-- The superclass as declared, with its type arguments. -/
  genericSuperclass : ClassId → Option TypeExpr
  /-- The interfaces as declared, with their type arguments. -/
  genericInterfaces : ClassId → List TypeExpr
  /-- The fields a class declares. -/
  fields : ClassId → List FieldDecl
  /-- The methods a class declares. -/
  methods : ClassId → List Executable
  /-- The constructors a class declares. -/
  constructors : ClassId → List Executable
  /-- What is cut off the front of the names of a class's own members. -/
  strippedPrefixes : ClassId → List String

namespace HostTypes

variable (h : HostTypes)

/-- Whether a class is an array class. -/
def isArray (c : ClassId) : Bool := (h.kind c).isArray

/-- Whether a class is an interface. -/
def isInterface (c : ClassId) : Bool := h.kind c = .interface

/-- The direct supertypes of a class: its interfaces in declaration order, then its superclass. -/
def supertypes (c : ClassId) : List ClassId := h.interfaces c ++ (h.superclass c).toList

/-- The parameter that declares a type variable. -/
def param? (v : TypeVar) : Option TypeParam := (h.typeParams v.owner)[v.index.toNat]?

/-- The bound of a type variable. -/
def boundOf (v : TypeVar) : Option TypeExpr := (h.param? v).map TypeParam.bound

/-- The same host, except that member names are not stripped of anything. -/
def unstripped : HostTypes := { h with strippedPrefixes := fun _ => [] }

/-- The same host, except that the universal base type declares what `lender` declares. -/
def withBaseMembersOf (lender : ClassId) : HostTypes :=
  let lent (c : ClassId) : ClassId := if c = ClassId.object then lender else c
  { h with
    fields := fun c => h.fields (lent c)
    methods := fun c => h.methods (lent c)
    constructors := fun c => h.constructors (lent c)
    strippedPrefixes := fun c => h.strippedPrefixes (lent c) }

/-! ### Spelling with names -/

/-- A class by its name. -/
def spellClass (c : ClassId) : List Char := (h.name c).toList

/-- A type variable by the name its owner gives it, or by its position when it gives none. -/
def spellVar (v : TypeVar) : List Char :=
  match h.param? v with
  | some p => p.name.toList
  | none => 'T' :: Nat.toDigits 10 v.index.toNat

/-- A type spelled with the host's names. -/
def spellType (t : TypeExpr) : String := String.ofList (t.spell h.spellClass h.spellVar)

end HostTypes

end ScriptSurface
