import ScriptSurface.Order

/-!
# Identities of host types

A `ClassId` names one host type.  The ids below `ClassId.firstUser` belong to the types every host
provides; ids from there on are handed out by a registry.  A `TypeVar` names a type variable by the
type that declares it and its position there, and `Kind` says what sort of type an id stands for.
-/

namespace ScriptSurface

/-- The identity of a host type. -/
structure ClassId where
  /-- The number of the type. -/
  index : UInt32
deriving DecidableEq, Hashable, Inhabited

namespace ClassId

instance (n : Nat) : OfNat ClassId n := ⟨⟨OfNat.ofNat n⟩⟩

/-! ### The types every host provides -/

/-- The universal base type. -/
def object : ClassId := 0
/-- The type of types. -/
def metatype : ClassId := 1
/-- Text. -/
def string : ClassId := 2
/-- No result. -/
def void : ClassId := 3
/-- Truth values. -/
def boolean : ClassId := 4
/-- Whole numbers of 8 bits. -/
def byte : ClassId := 5
/-- Whole numbers of 16 bits. -/
def short : ClassId := 6
/-- Whole numbers of 32 bits. -/
def int : ClassId := 7
/-- Whole numbers of 64 bits. -/
def long : ClassId := 8
/-- Floating-point numbers of 32 bits. -/
def float : ClassId := 9
/-- Floating-point numbers of 64 bits. -/
def double : ClassId := 10
/-- Characters. -/
def char : ClassId := 11
/-- The object form of `void`. -/
def boxedVoid : ClassId := 12
/-- The object form of `boolean`. -/
def boxedBoolean : ClassId := 13
/-- Arrays of the universal base type. -/
def objectArray : ClassId := 14
/-- Arrays of text. -/
def stringArray : ClassId := 15
/-- The first id a registry hands out. -/
def firstUser : ClassId := 16

/-! ### Families -/

/-- Whether the id belongs to a type every host provides. -/
def isReserved (c : ClassId) : Bool := c.index < firstUser.index

/-- Whether the type is `void` or its object form. -/
def isVoid (c : ClassId) : Bool := c = void || c = boxedVoid

/-- Whether the type is `boolean` or its object form. -/
def isBoolean (c : ClassId) : Bool := c = boolean || c = boxedBoolean

/-- Whether the type is primitive, `void` included. -/
def isPrimitive (c : ClassId) : Bool := void.index ≤ c.index && c.index ≤ char.index

/-- The array type of a host that keeps only two: one for text and one for everything else. -/
def collapsedArray (component : ClassId) : ClassId :=
  if component = string then stringArray else objectArray

/-- Compares ids by their numbers. -/
def order (a b : ClassId) : Ordering := Order.numbers a.index.toNat b.index.toNat

/-- The decimal digits of the id. -/
def digits (c : ClassId) : String := toString c.index.toNat

end ClassId

/-- The identity of a type variable. -/
structure TypeVar where
  /-- The type that declares the variable. -/
  owner : ClassId
  /-- The position of the variable among those its owner declares. -/
  index : UInt16
deriving DecidableEq, Inhabited

/-- Compares variables by owner and then by position. -/
def TypeVar.order (v w : TypeVar) : Ordering :=
  (v.owner.order w.owner).then (Order.numbers v.index.toNat w.index.toNat)

/-- The variable at a position of a type's declared parameters; positions count modulo 2¹⁶. -/
def TypeVar.at (owner : ClassId) (position : Nat) : TypeVar := ⟨owner, UInt16.ofNat position⟩

/-- What sort of type an id stands for. -/
inductive Kind where
  /-- A type with instances of its own. -/
  | concrete
  /-- A type that others implement. -/
  | interface
  /-- A primitive type. -/
  | primitive
  /-- The arrays of a component type. -/
  | array (component : ClassId)
deriving DecidableEq, Inhabited

/-- Whether the type is an array type. -/
def Kind.isArray : Kind → Bool
  | .array _ => true
  | _ => false

end ScriptSurface
