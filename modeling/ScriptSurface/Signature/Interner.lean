import ScriptSurface.Assoc
import ScriptSurface.Signature

/-!
# Interned signatures

Whoever makes a signature gets a `Signature.Handle`, and two handles can be told apart even when
their signatures are equal, unless the signature is common.  An `Interner` makes equal signatures
share a handle: it answers the handle it first saw for a signature.  Common signatures are shared
anyway, so it never stores them.

Handles are compared by their signatures.  The comparison takes two short cuts: what is one and the
same is equal, and what has different hashes is not.
-/

namespace ScriptSurface

/-- A signature as it was made. -/
structure Signature.Handle where
  /-- The signature. -/
  signature : Signature
  /-- The number under which it was made. -/
  number : Nat
  /-- A common signature is made once and for all. -/
  number_eq_zero : signature.isCommon = true → number = 0
deriving DecidableEq

/-- Whether two handles are one and the same. -/
def Signature.Handle.same (a b : Signature.Handle) : Bool := a = b

/-- The signature of a list of types: the one that is there already if it is common, else one that
is made under the given number. -/
def Signature.Handle.of (types : List ClassId) (number : Nat) : Signature.Handle :=
  match types with
  | [] => ⟨⟨[]⟩, 0, fun _ => rfl⟩
  | [c] =>
    match h : Signature.single? c with
    | some s => ⟨s, 0, fun _ => rfl⟩
    | none => ⟨⟨[c]⟩, number, by simp [Signature.isCommon, h]⟩
  | c :: d :: types => ⟨⟨c :: d :: types⟩, number, nofun⟩

instance : Inhabited Signature.Handle := ⟨.of [] 0⟩

/-- Compares two handles by a hash of types that was kept with each when it was made, and by the
types themselves, unless they are one and the same. -/
def Signature.Handle.equal (hash : List ClassId → UInt64) (a b : Signature.Handle) : Bool :=
  a.same b || (hash a.signature.types = hash b.signature.types
    && a.signature.types = b.signature.types)

/-- The handles that stand for the signatures seen so far. -/
structure Interner where
  /-- The handle of each signature that is not common, oldest first. -/
  table : Assoc Signature Signature.Handle

namespace Interner

/-- The interner that has seen nothing. -/
def empty : Interner := ⟨∅⟩

instance : Inhabited Interner := ⟨empty⟩

/-- The number of signatures stored. -/
def size (i : Interner) : Nat := i.table.size

/-- Whether the interner would store a signature that it is asked for. -/
def isNew (i : Interner) (s : Signature) : Bool := !s.isCommon && !i.table.contains s

/-- The handle that stands for the signature of the given one; on first sight that is itself. -/
def intern (a : Signature.Handle) : StateM Interner Signature.Handle := fun i =>
  if a.signature.isCommon then (a, i)
  else
    match i.table.find? a.signature with
    | some b => (b, i)
    | none => (a, ⟨i.table.put a.signature a⟩)

/-- The handle that stands for the signature of a list of types; on first sight that is one made
under the given number. -/
def of (types : List ClassId) (number : Nat) : StateM Interner Signature.Handle :=
  intern (.of types number)

end Interner

end ScriptSurface
