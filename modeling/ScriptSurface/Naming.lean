import ScriptSurface.HostTypes
import ScriptSurface.Text.Blank

/-!
# The names scripts see

A member is exposed under the first of these names that is not blank: the hint on its declaration,
the name a renamer answers, and what is left of its raw name after the first prefix of its class
that the raw name starts with.  If none applies it keeps its raw name.  Hints, answers and
remainders are trimmed; the raw name is taken as it is.

Only the first matching prefix is tried: a blank remainder ends the search.
-/

namespace ScriptSurface

/-- Overrides the names of members, per class that is asked for them. -/
structure Renamer where
  /-- The name for a field, if the renamer has one. -/
  fieldName : ClassId → FieldDecl → Option String
  /-- The name for a method, if the renamer has one. -/
  methodName : ClassId → Executable → Option String

namespace Renamer

/-- The renamer that overrides nothing. -/
def identity : Renamer := ⟨fun _ _ => none, fun _ _ => none⟩

/-- The renamer that answers the same for all fields and the same for all methods. -/
def constant (field method : Option String) : Renamer := ⟨fun _ _ => field, fun _ _ => method⟩

end Renamer

namespace Naming

/-- What is left of a name after the first of the prefixes that it starts with. -/
def remainder? (prefixes : List String) (raw : String) : Option String :=
  (prefixes.findSome? fun p => p.toList.isPrefixOf? raw.toList).map String.ofList

/-- The name a member is exposed under, from the hint on its declaration, the renamer's answer, the
prefixes of its class and its raw name. -/
def visible (hint answer : Option String) (prefixes : List String) (raw : String) : String :=
  (hint.bind Text.nonBlank? <|> answer.bind Text.nonBlank? <|>
    (remainder? prefixes raw).bind Text.nonBlank?).getD raw

/-- The name a field of a class is exposed under. -/
def ofField (renamer : Renamer) (c : ClassId) (prefixes : List String) (f : FieldDecl) : String :=
  visible f.rename (renamer.fieldName c f) prefixes f.name

/-- The name a method of a class is exposed under. -/
def ofMethod (renamer : Renamer) (c : ClassId) (prefixes : List String) (m : Executable) : String :=
  visible m.rename (renamer.methodName c m) prefixes m.name

end Naming

end ScriptSurface
