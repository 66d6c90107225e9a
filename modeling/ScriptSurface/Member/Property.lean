import ScriptSurface.Declaration
import ScriptSurface.Text.LetterCase

/-!
# Properties

Methods named in a certain way are the accessors of a property:

* `getXxx()` that returns something is the getter of `xxx`,
* `isXxx()` that returns a truth value is the getter of `xxx`,
* `setXxx(v)` is the setter of `xxx`.

The name that counts is the one scripts see.  What follows the word must start with an uppercase
letter, and the property has the lowercase of that letter instead.
-/

namespace ScriptSurface

/-- An accessor of a property. -/
inductive Accessor where
  /-- Reads the property. -/
  | getter
  /-- Writes the property. -/
  | setter
deriving DecidableEq, Inhabited

namespace Accessor

/-- The property whose name in methods starts with the given characters, if they can start one. -/
def property? : List Char → Option String
  | c :: rest =>
    if Text.isUppercase c then some (String.ofList (Text.lowercase c ++ rest)) else none
  | [] => none

/-- The property that a method with the given visible name is an accessor of. -/
def ofMethod? (name : String) (m : Executable) : Option (Accessor × String) :=
  match name.toList with
  | 'g' :: 'e' :: 't' :: rest =>
    if m.arity = 0 && !m.returns.isVoid then (property? rest).map (getter, ·) else none
  | 's' :: 'e' :: 't' :: rest => if m.arity = 1 then (property? rest).map (setter, ·) else none
  | 'i' :: 's' :: rest =>
    if m.arity = 0 && m.returns.isBoolean then (property? rest).map (getter, ·) else none
  | _ => none

end Accessor

end ScriptSurface
