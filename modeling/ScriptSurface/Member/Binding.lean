import ScriptSurface.Assoc
import ScriptSurface.Signature

/-!
# Bindings

A `Binding` is a callable as one of the candidates behind a member: the declaration with the
signature it is called by, whether it is kept from scripts, and the property it stands for if it is
a getter or setter.
-/

namespace ScriptSurface

/-- A callable as a candidate behind a member. -/
structure Binding where
  /-- The declaration. -/
  executable : Executable
  /-- The signature it is called by. -/
  signature : Signature
  /-- Whether it is kept from scripts. -/
  hidden : Bool
  /-- The property it stands for. -/
  property : Option String
deriving Inhabited

namespace Binding

/-- A declared callable as a candidate. -/
def ofExecutable (e : Executable) : Binding := ⟨e, ⟨e.params⟩, e.hidden, none⟩

/-- Whether scripts can call it. -/
def isVisible (b : Binding) : Bool := !b.hidden

end Binding

/-- Overloads by signature, in the order in which they are tried. -/
abbrev Overloads := Assoc Signature Binding

end ScriptSurface
