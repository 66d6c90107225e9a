import ScriptSurface.Registry
import ScriptSurface.Signature

/-!
# Diagnostic events

Rare or costly steps are reported as events: registering types, interning signatures, creating
descriptors, computing member tables and mappings, searching for overloads, and types too deep to
substitute in.  An event has a level, a message and named fields, all shown as text.
-/

namespace ScriptSurface

/-- How much an event matters. -/
inductive Level where
  /-- Something failed. -/
  | error
  /-- Something is probably not as it should be. -/
  | warn
  /-- Something worth knowing happened. -/
  | info
  /-- A step that helps to find faults. -/
  | debug
  /-- A step in full detail. -/
  | trace
deriving DecidableEq, Inhabited

namespace Level

/-- The name of a level in capitals. -/
def name : Level → String
  | error => "ERROR"
  | warn => "WARN"
  | info => "INFO"
  | debug => "DEBUG"
  | trace => "TRACE"

/-- The place of a level, the more detailed the higher. -/
def rank : Level → Nat
  | error => 1
  | warn => 2
  | info => 3
  | debug => 4
  | trace => 5

end Level

/-- A reported step. -/
inductive Event where
  /-- A class was registered. -/
  | registeredClass (c : ClassId) (name : String) (fields methods constructors : Nat)
  /-- An array class was registered. -/
  | registeredArray (component array : ClassId)
  /-- A signature was seen for the first time. -/
  | interned (s : Signature)
  /-- A part of a type was too deep to substitute in. -/
  | tooDeep (t : TypeExpr) (limit : Nat)
  /-- The mapping of a class was composed. -/
  | composedMapping (c : ClassId) (name : String) (entries : Nat)
  /-- A descriptor was created. -/
  | createdDescriptor (c : ClassId) (name : String) (interfaces : Nat)
  /-- The own members of a type were found. -/
  | foundOwnMembers (c : ClassId) (name : String) (members : Nat)
  /-- The members of a type were merged with those of its supertypes. -/
  | mergedMembers (c : ClassId) (name : String) (visited members : Nat)
  /-- The constructors of a type were found. -/
  | foundConstructors (c : ClassId) (name : String) (constructors : Nat)
  /-- The overloads of a member were searched. -/
  | searchedOverloads (owner member : String) (s : Signature) (found : Option Signature)

namespace Event

/-- How much the event matters. -/
def level : Event → Level
  | registeredClass .. => .trace
  | registeredArray .. => .trace
  | interned .. => .trace
  | tooDeep .. => .warn
  | composedMapping .. => .debug
  | createdDescriptor .. => .debug
  | foundOwnMembers .. => .trace
  | mergedMembers .. => .debug
  | foundConstructors .. => .trace
  | searchedOverloads .. => .debug

/-- The event in words. -/
def message : Event → String
  | registeredClass .. => "registering class"
  | registeredArray .. => "registering array class"
  | interned .. => "interning signature"
  | tooDeep .. => "consolidation depth exceeded, leaving type unresolved"
  | composedMapping .. => "collected consolidation mapping"
  | createdDescriptor .. => "creating type descriptor"
  | foundOwnMembers .. => "discovered own members"
  | mergedMembers .. => "merged hierarchy members"
  | foundConstructors .. => "discovered constructors"
  | searchedOverloads .. => "resolved overload"

/-- A signature that may be missing, in words. -/
def describeFound : Option Signature → String
  | some s => "Some(" ++ s.description ++ ")"
  | none => "None"

/-- The fields of the event. -/
def fields : Event → List (String × String)
  | registeredClass c name fields methods constructors =>
    [("class", c.digits), ("name", name), ("fields", toString fields),
      ("methods", toString methods), ("constructors", toString constructors)]
  | registeredArray component array => [("component", component.digits), ("array", array.digits)]
  | interned s => [("signature", s.description)]
  | tooDeep t limit => [("ty", t.description), ("max_depth", toString limit)]
  | composedMapping c name entries =>
    [("class", c.digits), ("name", name), ("entries", toString entries)]
  | createdDescriptor c name interfaces =>
    [("class", c.digits), ("name", name), ("interfaces", toString interfaces)]
  | foundOwnMembers c name members =>
    [("class", c.digits), ("name", name), ("members", toString members)]
  | mergedMembers c name visited members =>
    [("class", c.digits), ("name", name), ("visited", toString visited),
      ("members", toString members)]
  | foundConstructors c name constructors =>
    [("class", c.digits), ("name", name), ("constructors", toString constructors)]
  | searchedOverloads owner member s found =>
    [("owner", owner), ("member", member), ("signature", s.description),
      ("resolved", describeFound found)]

end Event

namespace Registry

/-- How registering a type is reported. -/
def announce (c : ClassId) (e : ClassEntry) : Event :=
  match e.kind with
  | .array component => .registeredArray component c
  | _ => .registeredClass c e.name e.fields.length e.methods.length e.constructors.length

/-- The reports of all that was registered after the first `n` types. -/
def announcementsAfter (r : Registry) (n : Nat) : List Event :=
  (r.entries.toList.drop n).map fun e => announce e.1 e.2

end Registry

end ScriptSurface
