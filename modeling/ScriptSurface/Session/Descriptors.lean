import ScriptSurface.Session

/-!
# Descriptors in a session

A session has one descriptor for each type.  It is created on first request, after the descriptors
of the superclass and of the interfaces, and never changed.
-/

namespace ScriptSurface.Session

/-- The key of the descriptor for a class, created if need be, through at most so many
generations. -/
def describeWithin (h : HostTypes) : Nat → ClassId → SessionM Descriptor.Key
  | 0, c => return .ofClass h c
  | n + 1, c => do
    let key := Descriptor.Key.ofClass h c
    if (← get).descriptors.contains key then return key
    let parent ← (h.superclass c).mapM (describeWithin h n)
    let interfaces ← (h.interfaces c).mapM (describeWithin h n)
    note (.createdDescriptor c (h.name c) interfaces.length)
    modify fun s =>
      { s with descriptors := s.descriptors.putNew key ⟨h.name c, parent, interfaces⟩ }
    return key

/-- The key of the descriptor for a class, created if need be. -/
def describe (h : HostTypes) (c : ClassId) : SessionM Descriptor.Key :=
  describeWithin h ClassId.count c

/-- The key of the descriptor for the class of a value; null has the universal base type. -/
def describeValue (h : HostTypes) : Option ClassId → SessionM Descriptor.Key
  | some c => describe h c
  | none => return .object

end ScriptSurface.Session
