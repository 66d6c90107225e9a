import ScriptSurface.Assoc
import ScriptSurface.HostTypes

/-!
# The registry of host types

A `Registry` holds the declarations of host types.  It starts with the types every host provides at
their reserved ids.  Ids for further types are handed out one after the other; a class is registered
under its id when its declaration is committed, and an array class when it is first asked for.

Next to the entries a registry has two tables to look something up in, which are kept up separately.
Whatever is registered takes its name in `Registry.byName`, also from a class that had it before.
An array class comes into `Registry.arrays` only after it was registered.
-/

namespace ScriptSurface

/-- What is registered of one type. -/
structure ClassEntry where
  /-- The full name. -/
  name : String
  /-- What sort of type it is. -/
  kind : Kind
  /-- The superclass. -/
  superclass : Option ClassId
  /-- The interfaces declared directly. -/
  interfaces : List ClassId
  /-- The type parameters. -/
  typeParams : List TypeParam
  /-- The superclass as declared. -/
  genericSuperclass : Option TypeExpr
  /-- The interfaces as declared. -/
  genericInterfaces : List TypeExpr
  /-- The declared fields. -/
  fields : List FieldDecl
  /-- The declared methods. -/
  methods : List Executable
  /-- The declared constructors. -/
  constructors : List Executable
  /-- What is cut off the front of member names. -/
  strippedPrefixes : List String
deriving Inhabited

/-- A type with nothing declared on it but its superclass. -/
def ClassEntry.bare (name : String) (kind : Kind) (superclass : Option ClassId) : ClassEntry where
  name := name
  kind := kind
  superclass := superclass
  interfaces := []
  typeParams := []
  genericSuperclass := superclass.map (TypeExpr.ofClass .anonymous)
  genericInterfaces := []
  fields := []
  methods := []
  constructors := []
  strippedPrefixes := []

/-- The array class of a component with the given name. -/
def ClassEntry.array (component : ClassId) (componentName : String) : ClassEntry :=
  bare (componentName ++ "[]") (.array component) (some ClassId.object)

/-- The declarations registered so far. -/
structure Registry where
  /-- The registered types by id, oldest first. -/
  entries : Assoc ClassId ClassEntry
  /-- The ids by full name. -/
  byName : Assoc String ClassId
  /-- The array classes by component. -/
  arrays : Assoc ClassId ClassId
  /-- How many ids have been handed out. -/
  reserved : Nat

namespace Registry

/-! ### Queries -/

/-- What is registered under an id. -/
def entryOf? (r : Registry) (c : ClassId) : Option ClassEntry := r.entries.find? c

/-- The name of a class; one that is not registered is named by its id. -/
def name (r : Registry) (c : ClassId) : String :=
  match r.entryOf? c with
  | some e => e.name
  | none => "<unregistered #" ++ c.digits ++ ">"

/-- The class that a name stands for. -/
def lookup (r : Registry) (name : String) : Option ClassId := r.byName.find? name

/-- The array class of a component, if it has one yet. -/
def array? (r : Registry) (component : ClassId) : Option ClassId := r.arrays.find? component

/-- The number of registered types. -/
def size (r : Registry) : Nat := r.entries.size

/-- The registry as a view of the host's types. -/
def types (r : Registry) : HostTypes where
  kind c := ((r.entryOf? c).map ClassEntry.kind).getD .concrete
  name := r.name
  superclass c := (r.entryOf? c).bind ClassEntry.superclass
  interfaces c := ((r.entryOf? c).map ClassEntry.interfaces).getD []
  typeParams c := ((r.entryOf? c).map ClassEntry.typeParams).getD []
  genericSuperclass c := (r.entryOf? c).bind ClassEntry.genericSuperclass
  genericInterfaces c := ((r.entryOf? c).map ClassEntry.genericInterfaces).getD []
  fields c := ((r.entryOf? c).map ClassEntry.fields).getD []
  methods c := ((r.entryOf? c).map ClassEntry.methods).getD []
  constructors c := ((r.entryOf? c).map ClassEntry.constructors).getD []
  strippedPrefixes c := ((r.entryOf? c).map ClassEntry.strippedPrefixes).getD []

/-! ### Changes -/

/-- Registers a type under an id, and the id under the name. -/
def register (r : Registry) (c : ClassId) (e : ClassEntry) : Registry :=
  { r with byName := r.byName.put e.name c, entries := r.entries.put c e }

/-- Has a class be the array class of a component. -/
def recordArray (r : Registry) (component c : ClassId) : Registry :=
  { r with arrays := r.arrays.put component c }

/-- The id handed out next; ids run out after 2³² of them and start over. -/
def next (r : Registry) : ClassId := ⟨UInt32.ofNat (ClassId.firstUser.index.toNat + r.reserved)⟩

/-- Hands out the next id. -/
def reserve : StateM Registry ClassId := fun r => (r.next, { r with reserved := r.reserved + 1 })

/-- The array class of a component, registered on first request under the component's name then. -/
def arrayOf (component : ClassId) : StateM Registry ClassId := fun r =>
  match r.array? component with
  | some c => (c, r)
  | none =>
    let (c, r') := reserve r
    (c, (r'.register c (.array component (r.name component))).recordArray component c)

/-- The erasure of a type; array classes that come up are registered. -/
def erase (t : TypeExpr) : StateM Registry ClassId := fun r =>
  t.erase arrayOf r.types.boundOf r

/-! ### The types every host provides -/

/-- The types every host provides, without their ids: these count up from zero. -/
def builtins : List ClassEntry :=
  let ofBase (name : String) : ClassEntry := .bare name .concrete (some ClassId.object)
  let primitive (name : String) : ClassEntry := .bare name .primitive none
  [.bare "Object" .concrete none,
    { ofBase "Class" with typeParams := [⟨"T", TypeExpr.object⟩] },
    ofBase "String", primitive "void", primitive "boolean", primitive "byte", primitive "short",
    primitive "int", primitive "long", primitive "float", primitive "double", primitive "char",
    ofBase "Void", ofBase "Boolean",
    .array ClassId.object "Object", .array ClassId.string "String"]

/-- Registers a type that every host provides. -/
def provide (r : Registry) (c : ClassId) (e : ClassEntry) : Registry :=
  match e.kind with
  | .array component => (r.register c e).recordArray component c
  | _ => r.register c e

/-- The registry in which only the types every host provides are registered. -/
def initial : Registry :=
  (builtins.mapIdx fun i e => (⟨UInt32.ofNat i⟩, e)).foldl (fun r x => r.provide x.1 x.2)
    ⟨∅, ∅, ∅, 0⟩

instance : Inhabited Registry := ⟨initial⟩

end Registry

end ScriptSurface
