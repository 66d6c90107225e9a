import ScriptSurface.TypeExpr.Erasure

/-!
# Declarations

A declaration is what the host says exists: a field, a method or a constructor with its name,
modifiers, declared types and hints.  Nothing here decides what a script sees of it.

A declaration does not hold code.  It holds the handle under which the host knows the field or the
callable, and whoever runs it looks the handle up.

A declaration starts out with provisional erasures and no declaring class of its own; registering
the class that declares it fills in both.
-/

namespace ScriptSurface

/-! ### Modifiers -/

/-- A set of modifiers, one bit each. -/
structure Modifiers where
  /-- The bits of the modifiers in the set. -/
  bits : UInt16
deriving DecidableEq, Inhabited

namespace Modifiers

/-- The modifiers by their names, in the order of their bits. -/
def names : List (String × Modifiers) :=
  [("public", ⟨1⟩), ("protected", ⟨2⟩), ("private", ⟨4⟩), ("static", ⟨8⟩), ("final", ⟨16⟩),
    ("transient", ⟨32⟩), ("native", ⟨64⟩), ("abstract", ⟨128⟩), ("volatile", ⟨256⟩)]

/-- No modifier. -/
def none : Modifiers := ⟨0⟩
/-- Accessible to all. -/
def isPublic : Modifiers := ⟨1⟩
/-- Accessible to types below. -/
def isProtected : Modifiers := ⟨2⟩
/-- Belonging to the type and not to an instance. -/
def isStatic : Modifiers := ⟨8⟩
/-- Not to be written again. -/
def isFinal : Modifiers := ⟨16⟩
/-- Not part of the lasting state. -/
def isTransient : Modifiers := ⟨32⟩
/-- Implemented outside the host's language. -/
def isNative : Modifiers := ⟨64⟩

/-- The modifiers of two sets together. -/
def union (a b : Modifiers) : Modifiers := ⟨a.bits ||| b.bits⟩

/-- Whether every modifier of `b` is in `a`. -/
def contains (a b : Modifiers) : Bool := a.bits &&& b.bits == b.bits

/-- The set of the modifiers with the given names; other names are ignored. -/
def ofNames (words : List String) : Modifiers :=
  words.foldl (fun m word => m.union ((names.lookup word).getD none)) none

end Modifiers

/-! ### Members -/

/-- A type parameter of a generic type. -/
structure TypeParam where
  /-- The name of the parameter. -/
  name : String
  /-- The first upper bound; the universal base type when there is none. -/
  bound : TypeExpr
deriving Inhabited

/-- A declared field. -/
structure FieldDecl where
  /-- The class that declares the field. -/
  declaring : ClassId
  /-- The name in the declaration. -/
  name : String
  /-- The modifiers. -/
  modifiers : Modifiers
  /-- The erasure of the declared type. -/
  type : ClassId
  /-- The declared type. -/
  genericType : TypeExpr
  /-- Whether the field is kept from scripts. -/
  hidden : Bool
  /-- A hint at another name for scripts. -/
  rename : Option String
  /-- The host's handle for the field. -/
  handle : Nat
deriving Inhabited

/-- What sort of callable a declaration is. -/
inductive CallableKind where
  /-- A method. -/
  | method
  /-- A constructor. -/
  | constructor
deriving DecidableEq, Inhabited

/-- A declared method or constructor. -/
structure Executable where
  /-- The class that declares the callable. -/
  declaring : ClassId
  /-- Method or constructor. -/
  kind : CallableKind
  /-- The name in the declaration. -/
  name : String
  /-- The modifiers. -/
  modifiers : Modifiers
  /-- The erasures of the parameter types; calls are dispatched by them. -/
  params : List ClassId
  /-- The declared parameter types. -/
  genericParams : List TypeExpr
  /-- The erasure of the return type. -/
  returns : ClassId
  /-- The declared return type. -/
  genericReturn : TypeExpr
  /-- Whether the callable is kept from scripts. -/
  hidden : Bool
  /-- A hint at another name for scripts. -/
  rename : Option String
  /-- The host's handle for the callable. -/
  handle : Nat
deriving Inhabited

namespace FieldDecl

/-- A public field before its class is registered. -/
def declare (name : String) (type : TypeExpr) (handle : Nat) : FieldDecl where
  declaring := ClassId.object
  name := name
  modifiers := Modifiers.isPublic
  type := type.provisionalErasure
  genericType := type
  hidden := false
  rename := none
  handle := handle

/-- Whether the field is public. -/
def isPublic (f : FieldDecl) : Bool := f.modifiers.contains Modifiers.isPublic

/-- Whether the field is protected. -/
def isProtected (f : FieldDecl) : Bool := f.modifiers.contains Modifiers.isProtected

/-- Whether the field is final. -/
def isFinal (f : FieldDecl) : Bool := f.modifiers.contains Modifiers.isFinal

/-- Whether the field is transient. -/
def isTransient (f : FieldDecl) : Bool := f.modifiers.contains Modifiers.isTransient

end FieldDecl

namespace Executable

/-- The name under which constructors are known. -/
def constructorName : String := "<init>"

/-- A public method before its class is registered. -/
def declareMethod (name : String) (params : List TypeExpr) (returns : TypeExpr) (handle : Nat) :
    Executable where
  declaring := ClassId.object
  kind := .method
  name := name
  modifiers := Modifiers.isPublic
  params := params.map TypeExpr.provisionalErasure
  genericParams := params
  returns := returns.provisionalErasure
  genericReturn := returns
  hidden := false
  rename := none
  handle := handle

/-- A public constructor before its class is registered; its return type is unknown. -/
def declareConstructor (params : List TypeExpr) (handle : Nat) : Executable :=
  { declareMethod constructorName params .unknown handle with kind := .constructor }

/-- Whether the callable is public. -/
def isPublic (e : Executable) : Bool := e.modifiers.contains Modifiers.isPublic

/-- Whether the callable is protected. -/
def isProtected (e : Executable) : Bool := e.modifiers.contains Modifiers.isProtected

/-- Whether the callable is native. -/
def isNative (e : Executable) : Bool := e.modifiers.contains Modifiers.isNative

/-- Whether the callable belongs to the type and not to an instance. -/
def isStatic (e : Executable) : Bool := e.modifiers.contains Modifiers.isStatic

/-- The number of parameters. -/
def arity (e : Executable) : Nat := e.params.length

end Executable

end ScriptSurface
