import ScriptSurface.Member.Access
import ScriptSurface.Session
import ScriptSurface.Text.Quoted

/-!
# Descriptions

Declarations, members and descriptors have a description for diagnostics: the name of what it is and
its fields in braces, names quoted and types by id.  A description that leaves fields out ends in
two dots.
-/

namespace ScriptSurface

namespace Description

/-- Texts with a comma and a space between them. -/
def separated (parts : List String) : String := String.intercalate ", " parts

/-- A record with its fields; `complete` says whether they are all it has. -/
def record (name : String) (fields : List (String × String)) (complete : Bool) : String :=
  let parts := fields.map fun (field, value) => field ++ ": " ++ value
  let parts := if complete then parts else parts ++ [".."]
  name ++ " \x7b " ++ separated parts ++ " \x7d"

/-- A list in brackets. -/
def list (parts : List String) : String := "[" ++ separated parts ++ "]"

/-- Something wrapped under a name. -/
def wrapped (name value : String) : String := name ++ "(" ++ value ++ ")"

/-- Something that may be missing. -/
def optional : Option String → String
  | some value => wrapped "Some" value
  | none => "None"

/-- A truth value. -/
def bool (b : Bool) : String := if b then "true" else "false"

end Description

open Description

/-- The outcome of using a member, with texts for values. -/
def Lookup.describe : Lookup String → String
  | absent => "Absent"
  | null => "Null"
  | value s => wrapped "Value" (Text.quoted s)

/-- A class by its id. -/
def ClassId.describe (c : ClassId) : String := wrapped "ClassId" c.digits

/-- The names of modifiers, in capitals. -/
def Modifiers.describe (m : Modifiers) : String :=
  let present := (names.filter fun e => m.contains e.2).map fun e => e.1.toUpper
  wrapped "Modifiers" (if present.isEmpty then "0x0" else String.intercalate " | " present)

/-- The kind of a callable. -/
def CallableKind.describe : CallableKind → String
  | method => "Method"
  | constructor => "Constructor"

/-- A declared field. -/
def FieldDecl.describe (f : FieldDecl) : String :=
  record "FieldDecl"
    [("declaring", f.declaring.describe), ("name", Text.quoted f.name),
      ("modifiers", f.modifiers.describe), ("generic_type", f.genericType.description),
      ("hidden", bool f.hidden)] false

/-- A declared callable. -/
def Executable.describe (e : Executable) : String :=
  record "Executable"
    [("declaring", e.declaring.describe), ("kind", e.kind.describe), ("name", Text.quoted e.name),
      ("params", list (e.params.map ClassId.describe)), ("return_type", e.returns.describe),
      ("hidden", bool e.hidden)] false

/-- The field behind a member. -/
def FieldDecl.describeBound (f : FieldDecl) : String :=
  record "FieldBinding"
    [("name", Text.quoted f.name), ("declaring", f.declaring.describe),
      ("is_final", bool f.isFinal)] true

/-- A callable behind a member. -/
def Binding.describe (b : Binding) : String :=
  record "CallableBinding"
    [("name", Text.quoted b.executable.name), ("declaring", b.executable.declaring.describe),
      ("signature", b.signature.description), ("hidden", bool b.hidden),
      ("bean", optional (b.property.map Text.quoted))] true

/-- A member. -/
def Member.describe (m : Member) : String :=
  record "MemberSlot"
    [("name", Text.quoted m.name), ("owner", Text.quoted m.ownerName),
      ("field", optional (m.slot.field.map FieldDecl.describeBound)),
      ("bean_get", optional (m.slot.getter.map Binding.describe)),
      ("bean_set", optional (m.slot.setter.map Binding.describe)),
      ("overloads", list (m.slot.overloads.values.map Binding.describe))] true

/-- A descriptor, with its supertypes by name. -/
def Session.describeDescriptor (s : Session) (key : Descriptor.Key) : String :=
  let name (k : Descriptor.Key) : String := Text.quoted (s.descriptor k).name
  let d := s.descriptor key
  record "TypeDescriptor"
    [("class", key.cls.describe), ("name", name key), ("parent", optional (d.parent.map name)),
      ("interfaces", list (d.interfaces.map name))] false

end ScriptSurface
