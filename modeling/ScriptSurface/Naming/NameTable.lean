import ScriptSurface.Assoc
import ScriptSurface.Naming

/-!
# Renaming by tables

A `NameTable` lists names for single fields and methods, each under the class that declares it.  A
class is answered the name of the first class that has an entry, in the order: the class itself,
then everything on the superclass's side, then everything on each interface's side, interfaces in
declaration order.  So a name given on an interface also names the overriding method of a class that
implements it.  The universal base type is never looked at.
-/

namespace ScriptSurface

/-- Names for single members, under the classes that declare them. -/
structure NameTable where
  /-- Names of fields, by class and raw name. -/
  fields : Assoc (ClassId × String) String
  /-- Names of methods, by class, raw name and erased parameters. -/
  methods : Assoc (ClassId × String × List ClassId) String

namespace NameTable

/-- The table without names. -/
def empty : NameTable := ⟨∅, ∅⟩

/-- Gives a field a name; a later name for the same field replaces an earlier one. -/
def nameField (t : NameTable) (c : ClassId) (raw mapped : String) : NameTable :=
  { t with fields := t.fields.put (c, raw) mapped }

/-- Gives a method a name; a later name for the same method replaces an earlier one. -/
def nameMethod (t : NameTable) (c : ClassId) (raw : String) (params : List ClassId)
    (mapped : String) : NameTable :=
  { t with methods := t.methods.put (c, raw, params) mapped }

/-- The first answer on the way from a class up through its superclass and then its interfaces,
through at most so many generations. -/
def search (h : HostTypes) (answer : ClassId → Option String) : Nat → ClassId → Option String
  | 0, _ => none
  | n + 1, c =>
    if c = ClassId.object then none
    else
      answer c <|> (h.superclass c).bind (search h answer n) <|>
        (h.interfaces c).findSome? (search h answer n)

/-- The table as a renamer for the types of a host. -/
def renamer (t : NameTable) (h : HostTypes) : Renamer where
  fieldName c f :=
    search h (fun d => t.fields.find? (d, f.name)) ClassId.count c
  methodName c m :=
    search h (fun d => t.methods.find? (d, m.name, m.params)) ClassId.count c

end NameTable

end ScriptSurface
