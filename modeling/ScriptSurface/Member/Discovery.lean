import ScriptSurface.Environment
import ScriptSurface.Member.Property
import ScriptSurface.Member.Slot

/-!
# Own members

The own members of a class come from its declared fields and methods.  Those that are *eligible* are
gone through in the order the options say, fields before methods, and each goes into the slot under
its visible name: a field becomes the slot's field, a method one of its overloads.  A method that is
not hidden may also become the getter or setter of a property.  Later ones replace earlier ones.

The universal base type has no own members unless the options expose them.
-/

namespace ScriptSurface

namespace Environment

variable (env : Environment)

/-! ### Which declarations count -/

/-- Whether a field becomes a member. -/
def isEligibleField (f : FieldDecl) : Bool :=
  (f.isPublic || env.options.includeProtected && f.isProtected) && !f.isTransient && !f.hidden

/-- Whether a method becomes a member. -/
def isEligibleMethod (m : Executable) : Bool :=
  (m.isPublic || env.options.includeProtected && m.isProtected) && !m.isNative

/-- Compares methods by raw name and then by parameters. -/
def methodOrder (a b : Executable) : Ordering :=
  (Order.texts a.name b.name).then (Order.lists ClassId.order a.params b.params)

/-- The eligible fields of a class in the order in which they are gone through. -/
def eligibleFields (c : ClassId) : List FieldDecl :=
  let fields := (env.types.fields c).filter env.isEligibleField
  match env.options.discoveryOrder with
  | .sortedByName => Order.sortByText FieldDecl.name fields
  | .declared => fields

/-- The eligible methods of a class in the order in which they are gone through. -/
def eligibleMethods (c : ClassId) : List Executable :=
  let methods := (env.types.methods c).filter env.isEligibleMethod
  match env.options.discoveryOrder with
  | .sortedByName => methods.mergeSort fun a b => (methodOrder a b).isLE
  | .declared => methods

/-- Whether own members of a class are withheld. -/
def isWithheld (c : ClassId) : Bool :=
  c = ClassId.object && !env.options.exposeBaseTypeMembers

/-! ### Names and accessors -/

/-- The name under which a field of a class is exposed. -/
def fieldName (c : ClassId) (f : FieldDecl) : String :=
  Naming.ofField env.renamer c (env.types.strippedPrefixes c) f

/-- The name under which a method of a class is exposed. -/
def methodName (c : ClassId) (m : Executable) : String :=
  Naming.ofMethod env.renamer c (env.types.strippedPrefixes c) m

/-- The property that a method of a class is an accessor of. -/
def accessor? (c : ClassId) (m : Executable) : Option (Accessor × String) :=
  if env.options.beanProperties && !m.hidden then Accessor.ofMethod? (env.methodName c m) m
  else none

/-- A method of a class as a candidate. -/
def bindMethod (c : ClassId) (m : Executable) : Binding :=
  { Binding.ofExecutable m with property := (env.accessor? c m).map Prod.snd }

/-! ### The table -/

/-- Adds a field of a class to its own members. -/
def addField (c : ClassId) (t : MemberTable) (f : FieldDecl) : MemberTable :=
  t.change (env.fieldName c f) (Slot.setField f)

/-- Adds a method of a class to its own members, first as an accessor if it is one. -/
def addMethod (c : ClassId) (t : MemberTable) (m : Executable) : MemberTable :=
  let b := env.bindMethod c m
  let t :=
    match env.accessor? c m with
    | some (.getter, property) => t.change property (Slot.setGetter b)
    | some (.setter, property) => t.change property (Slot.setSetter b)
    | none => t
  t.change (env.methodName c m) (Slot.addOverload b)

/-- The own members of a class. -/
def ownMembers (c : ClassId) : MemberTable :=
  if env.isWithheld c then ∅
  else
    let fields := (env.eligibleFields c).foldl (env.addField c) ∅
    (env.eligibleMethods c).foldl (env.addMethod c) fields

/-! ### Constructors -/

/-- The declared constructors that scripts can call. -/
def eligibleConstructors (c : ClassId) : List Executable :=
  (env.types.constructors c).filter fun e => e.isPublic && !e.hidden

/-- The constructors of a class by signature; the last one declared counts. -/
def constructors (c : ClassId) : Overloads :=
  (env.eligibleConstructors c).foldl
    (fun t e => t.put ⟨e.params⟩ (Binding.ofExecutable e)) ∅

end Environment

end ScriptSurface
