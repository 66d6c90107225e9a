import ScriptSurface.Event
import ScriptSurface.Mapping
import ScriptSurface.Member.Access
import ScriptSurface.Signature.Interner

/-!
# Sessions

A `Session` is what an environment has worked out so far: descriptors of types, their member tables
and constructors, the mappings of classes, the signatures seen, and what dispatch remembers.  All of
it is worked out on first request and kept, and the steps are noted as events.

A type is known in a session by its `Descriptor.Key`.  All array types share one descriptor.
-/

namespace ScriptSurface

/-! ### Descriptors -/

/-- What a descriptor is for. -/
inductive Descriptor.Key where
  /-- The universal base type. -/
  | object
  /-- All array types. -/
  | array
  /-- The type of types. -/
  | metatype
  /-- Any other type. -/
  | general (c : ClassId)
deriving DecidableEq, Inhabited

namespace Descriptor.Key

/-- The key of the descriptor for a class. -/
def ofClass (h : HostTypes) (c : ClassId) : Key :=
  if c = ClassId.object then object
  else if c = ClassId.metatype then metatype
  else if h.isArray c then array
  else general c

/-- The class a descriptor reports. -/
def cls : Key → ClassId
  | object => ClassId.object
  | array => ClassId.objectArray
  | metatype => ClassId.metatype
  | general c => c

/-- Whether the descriptor is for a type without a descriptor set aside for it. -/
def isGeneral : Key → Bool
  | general _ => true
  | _ => false

end Descriptor.Key

/-- What a session knows of a type: its name and its direct supertypes. -/
structure Descriptor where
  /-- The full name. -/
  name : String
  /-- The superclass. -/
  parent : Option Descriptor.Key
  /-- The interfaces declared directly. -/
  interfaces : List Descriptor.Key
deriving DecidableEq, Inhabited

/-- The direct supertypes: the interfaces in declaration order, then the superclass. -/
def Descriptor.supertypes (d : Descriptor) : List Descriptor.Key :=
  d.interfaces ++ d.parent.toList

/-! ### What is kept -/

/-- Which of a type's two member tables a member is in. -/
inductive Scope where
  /-- The members the type declares itself. -/
  | own
  /-- Those members and the inherited ones. -/
  | merged
deriving DecidableEq, Inhabited

/-- Where a member is found. -/
structure MemberPath where
  /-- The type. -/
  key : Descriptor.Key
  /-- The table. -/
  scope : Scope
  /-- The visible name. -/
  name : String
deriving DecidableEq, Inhabited

/-- What an environment has worked out so far. -/
structure Session where
  /-- The descriptors. -/
  descriptors : Assoc Descriptor.Key Descriptor
  /-- The own members of types. -/
  ownTables : Assoc Descriptor.Key MemberTable
  /-- The own and inherited members of types. -/
  mergedTables : Assoc Descriptor.Key MemberTable
  /-- The constructors of types. -/
  constructorTables : Assoc Descriptor.Key Overloads
  /-- What dispatch remembers of members. -/
  memos : Assoc MemberPath Memo
  /-- The mappings of classes. -/
  mappings : Assoc ClassId Mapping
  /-- The signatures seen. -/
  signatures : Interner
  /-- The events noted, latest last. -/
  events : List Event

/-- A computation in a session. -/
abbrev SessionM := StateM Session

namespace Session

/-- A new session.  The base type and the array types have their descriptors from the start. -/
def start (h : HostTypes) : Session where
  descriptors :=
    (∅ : Assoc Descriptor.Key Descriptor)
      |>.put .object ⟨h.name ClassId.object, none, []⟩
      |>.put .array ⟨h.name ClassId.objectArray, some .object, []⟩
  ownTables := ∅
  mergedTables := ∅
  constructorTables := ∅
  memos := ∅
  mappings := ∅
  signatures := .empty
  events := []

/-- The number of descriptors other than those set aside for special types. -/
def descriptorCount (s : Session) : Nat :=
  (s.descriptors.keys.filter Descriptor.Key.isGeneral).length

/-- The descriptor under a key. -/
def descriptor (s : Session) (key : Descriptor.Key) : Descriptor :=
  (s.descriptors.find? key).getD ⟨"", none, []⟩

/-- Notes an event. -/
def note (e : Event) : SessionM Unit := modify fun s => { s with events := s.events ++ [e] }

/-- Takes the events noted so far out of the session. -/
def takeEvents : SessionM (List Event) := fun s => (s.events, { s with events := [] })

/-- Interns a signature. -/
def intern (signature : Signature) : SessionM Signature.Handle := fun s =>
  let (handle, signatures) := Interner.of signature.types s.signatures.size s.signatures
  let events :=
    if s.signatures.isNew signature then s.events ++ [.interned signature] else s.events
  (handle, { s with signatures := signatures, events := events })

end Session

end ScriptSurface
