import ScriptSurface.Registry
import ScriptSurface.Text.Blank

/-!
# Drafts of class declarations

A `Draft` is a declaration on its way into the registry.  Its id is reserved at the start, so what
is declared can refer to the class itself and to its type variables; `Draft.commit` registers it.

Committing erases every declared type, in the order superclass, interfaces, fields, methods,
constructors.  The draft's own variables erase through the bounds the draft holds, since the
registry does not know them yet; a variable of another class erases as the registry has it.
-/

namespace ScriptSurface

/-- A class declaration that is not registered yet. -/
structure Draft where
  /-- The id reserved for the class. -/
  id : ClassId
  /-- The full name. -/
  name : String
  /-- What sort of type it is. -/
  kind : Kind
  /-- The superclass, if one is given. -/
  superclass : Option TypeExpr
  /-- The interfaces. -/
  interfaces : List TypeExpr
  /-- The type parameters. -/
  typeParams : List TypeParam
  /-- The fields. -/
  fields : List FieldDecl
  /-- The methods. -/
  methods : List Executable
  /-- The constructors. -/
  constructors : List Executable
  /-- What is to be cut off the front of member names. -/
  strippedPrefixes : List String
deriving Inhabited

namespace Draft

/-! ### Declaring -/

/-- Starts a declaration under a newly reserved id. -/
def start (kind : Kind) (name : String) : StateM Registry Draft := do
  let id ← Registry.reserve
  return ⟨id, name, kind, none, [], [], [], [], [], []⟩

/-- Declares a type parameter and answers its variable. -/
def addTypeParam (d : Draft) (stamp : Stamp) (name : String) (bound : TypeExpr) :
    TypeExpr × Draft :=
  (.var (.at d.id d.typeParams.length) stamp,
    { d with typeParams := d.typeParams ++ [⟨name, bound⟩] })

/-- Declares type parameters, each with the stamp of its variable, and answers the variables. -/
def addTypeParams (d : Draft) (params : List (Stamp × TypeParam)) : List TypeExpr × Draft :=
  (params.mapIdx fun i p => .var (.at d.id (d.typeParams.length + i)) p.1,
    { d with typeParams := d.typeParams ++ params.map Prod.snd })

/-- Sets the superclass. -/
def extend (d : Draft) (parent : TypeExpr) : Draft := { d with superclass := some parent }

/-- Adds an interface. -/
def implement (d : Draft) (interface : TypeExpr) : Draft :=
  { d with interfaces := d.interfaces ++ [interface] }

/-- Adds a field. -/
def addField (d : Draft) (f : FieldDecl) : Draft := { d with fields := d.fields ++ [f] }

/-- Adds a method. -/
def addMethod (d : Draft) (m : Executable) : Draft := { d with methods := d.methods ++ [m] }

/-- Adds a constructor. -/
def addConstructor (d : Draft) (e : Executable) : Draft :=
  { d with constructors := d.constructors ++ [e] }

/-- Has a prefix cut off member names.  Blanks around it do not count; a blank prefix, or one that
is already there, is dropped. -/
def stripPrefix (d : Draft) (text : String) : Draft :=
  match Text.nonBlank? text with
  | some p =>
    if d.strippedPrefixes.contains p then d
    else { d with strippedPrefixes := d.strippedPrefixes ++ [p] }
  | none => d

/-! ### Erasing what is declared -/

/-- The erasure of a variable through at most so many bounds, the draft's own ones first. -/
def eraseVar (d : Draft) : Nat → TypeVar → StateM Registry ClassId
  | 0, _ => pure ClassId.object
  | n + 1, v =>
    if v.owner = d.id then
      match d.typeParams[v.index.toNat]? with
      | some p => p.bound.eraseWith Registry.arrayOf (d.eraseVar n)
      | none => pure ClassId.object
    else Registry.erase (.var v .anonymous)

/-- The erasure of a type in the draft's declarations. -/
def erase (d : Draft) (t : TypeExpr) : StateM Registry ClassId :=
  t.eraseWith Registry.arrayOf (d.eraseVar TypeVar.count)

/-- A field as the draft's class declares it. -/
def finishField (d : Draft) (f : FieldDecl) : StateM Registry FieldDecl := do
  let type ← d.erase f.genericType
  return { f with declaring := d.id, type := type }

/-- A callable as the draft's class declares it; an unknown return type keeps its provisional
erasure. -/
def finishExecutable (d : Draft) (e : Executable) : StateM Registry Executable := do
  let params ← e.genericParams.mapM d.erase
  let returns ← if e.genericReturn.isUnknown then pure e.returns else d.erase e.genericReturn
  return { e with declaring := d.id, params := params, returns := returns }

/-- The superclass of the declared class: the one given, or the universal base type for a class
that names none. -/
def eraseSuperclass (d : Draft) : StateM Registry (Option ClassId) :=
  match d.superclass with
  | some t => some <$> d.erase t
  | none => pure (if d.kind = .concrete then some ClassId.object else none)

/-- Registers the declared class and answers its id. -/
def commit (d : Draft) : StateM Registry ClassId := do
  let superclass ← d.eraseSuperclass
  let interfaces ← d.interfaces.mapM d.erase
  let fields ← d.fields.mapM d.finishField
  let methods ← d.methods.mapM d.finishExecutable
  let constructors ← d.constructors.mapM d.finishExecutable
  modify fun r => r.register d.id
    { name := d.name
      kind := d.kind
      superclass := superclass
      interfaces := interfaces
      typeParams := d.typeParams
      genericSuperclass := d.superclass <|> superclass.map (TypeExpr.ofClass .anonymous)
      genericInterfaces := d.interfaces
      fields := fields
      methods := methods
      constructors := constructors
      strippedPrefixes := d.strippedPrefixes }
  return d.id

end Draft

end ScriptSurface
