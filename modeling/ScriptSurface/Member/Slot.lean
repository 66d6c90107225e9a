import ScriptSurface.Member.Binding

/-!
# Slots

A `Slot` is everything behind one visible name of a type: at most one field, at most one getter and
one setter of a property, and the overloads.  A `MemberTable` holds the slots of a type by name.

`Slot.inherit` adds to a slot what a supertype has under the same name.  The field and the accessors
already there stay.  An overload of a signature that is already there takes its place, but stays
hidden if it was, and keeps the property it stood for if it stood for one.
-/

namespace ScriptSurface

/-- What is behind one visible name. -/
structure Slot where
  /-- The field. -/
  field : Option FieldDecl
  /-- The getter of the property. -/
  getter : Option Binding
  /-- The setter of the property. -/
  setter : Option Binding
  /-- The overloads, hidden ones included. -/
  overloads : Overloads
deriving Inhabited

/-- The slots of a type by visible name. -/
abbrev MemberTable := Assoc String Slot

namespace Slot

/-- The slot with nothing in it. -/
def empty : Slot := ⟨none, none, none, ∅⟩

/-! ### What a slot offers -/

/-- The overloads that scripts can call, in the order in which they are tried. -/
def visible (s : Slot) : List Binding := s.overloads.values.filter Binding.isVisible

/-- Whether there is an overload that scripts can call. -/
def hasVisible (s : Slot) : Bool := s.overloads.values.any Binding.isVisible

/-- Whether the member can be read: through a getter or a field. -/
def isReadable (s : Slot) : Bool := s.getter.isSome || s.field.isSome

/-- Whether the member can be written: through a setter or a field that is not final. -/
def isWritable (s : Slot) : Bool := s.setter.isSome || s.field.any fun f => !f.isFinal

/-- Whether the member can be used in any way. -/
def isUsable (s : Slot) : Bool := s.isReadable || s.isWritable || s.hasVisible

/-! ### Building slots -/

/-- Sets the field. -/
def setField (f : FieldDecl) (s : Slot) : Slot := { s with field := some f }

/-- Sets the getter. -/
def setGetter (b : Binding) (s : Slot) : Slot := { s with getter := some b }

/-- Sets the setter. -/
def setSetter (b : Binding) (s : Slot) : Slot := { s with setter := some b }

/-- Adds an overload, in place of one with the same signature. -/
def addOverload (b : Binding) (s : Slot) : Slot :=
  { s with overloads := s.overloads.put b.signature b }

/-- What becomes of an overload when a supertype has one with the same signature. -/
def inheritBinding (there : Option Binding) (b : Binding) : Binding :=
  match there with
  | some a => { b with hidden := a.hidden || b.hidden, property := a.property <|> b.property }
  | none => b

/-- Adds the overloads of a supertype. -/
def inheritOverloads (mine inherited : Overloads) : Overloads :=
  inherited.toList.foldl (fun t (s, b) => t.alter s fun there => inheritBinding there b) mine

/-- Adds what a supertype has under the same name. -/
def inherit (s inherited : Slot) : Slot where
  field := s.field <|> inherited.field
  getter := s.getter <|> inherited.getter
  setter := s.setter <|> inherited.setter
  overloads := inheritOverloads s.overloads inherited.overloads

end Slot

namespace MemberTable

/-- Changes the slot under a name, starting from an empty one if there is none. -/
def change (t : MemberTable) (name : String) (f : Slot → Slot) : MemberTable :=
  t.alter name fun s => f (s.getD Slot.empty)

/-- Adds the slots of a supertype. -/
def inherit (t inherited : MemberTable) : MemberTable :=
  inherited.toList.foldl
    (fun t (name, s) => t.alter name fun mine => (mine.map fun m => m.inherit s).getD s) t

/-- The members of a type, from the own members of everything on its walk, in order. -/
def merge (walk : List MemberTable) : MemberTable := walk.foldl inherit ∅

/-- The names behind which there is something to use, in ascending order. -/
def usableNames (t : MemberTable) : List String :=
  Order.sortByText id ((t.toList.filter fun e => e.2.isUsable).map Prod.fst)

end MemberTable

end ScriptSurface
