import ScriptSurface.Hierarchy
import ScriptSurface.Member.Discovery
import ScriptSurface.Session

/-!
# Members in a session

The member tables of a type are worked out on first request and kept: its own members, its own and
inherited members, and its constructors.

Inherited members are merged along the walk through the supertypes, breadth first: a type, its
interfaces and its superclass, theirs, and so on.  A type reached in two ways is merged twice.

    Child implements Named
    Child extends Base          the walk of Child:  Child, Named, Base, Named
    Base implements Named
-/

namespace ScriptSurface.Session

/-- The types whose own members go into the members of a type, in the order of merging. -/
def walk (s : Session) (key : Descriptor.Key) : List Descriptor.Key :=
  breadthFirst (fun k => (s.descriptor k).supertypes) ClassId.count key

/-- The own members of a type. -/
def ownMembers (env : Environment) (key : Descriptor.Key) : SessionM MemberTable := do
  if let some t := (← get).ownTables.find? key then return t
  let t := env.ownMembers key.cls
  unless env.isWithheld key.cls do
    (env.eligibleMethods key.cls).forM fun m => do let _ ← intern ⟨m.params⟩
    note (.foundOwnMembers key.cls ((← get).descriptor key).name t.size)
  modify fun s => { s with ownTables := s.ownTables.put key t }
  return t

/-- The own and inherited members of a type. -/
def members (env : Environment) (key : Descriptor.Key) : SessionM MemberTable := do
  if let some t := (← get).mergedTables.find? key then return t
  let walk := (← get).walk key
  let t := MemberTable.merge (← walk.mapM (ownMembers env))
  note (.mergedMembers key.cls ((← get).descriptor key).name walk.length t.size)
  modify fun s => { s with mergedTables := s.mergedTables.put key t }
  return t

/-- The members of a type in one of its tables. -/
def table (env : Environment) (key : Descriptor.Key) : Scope → SessionM MemberTable
  | .own => ownMembers env key
  | .merged => members env key

/-- The constructors of a type. -/
def constructors (env : Environment) (key : Descriptor.Key) : SessionM Overloads := do
  if let some t := (← get).constructorTables.find? key then return t
  let t := env.constructors key.cls
  (env.eligibleConstructors key.cls).forM fun e => do let _ ← intern ⟨e.params⟩
  note (.foundConstructors key.cls ((← get).descriptor key).name t.size)
  modify fun s => { s with constructorTables := s.constructorTables.put key t }
  return t

/-- A member of a type. -/
def member? (env : Environment) (path : MemberPath) : SessionM (Option Member) := do
  let t ← table env path.key path.scope
  let ownerName := ((← get).descriptor path.key).name
  return (t.find? path.name).map fun slot => ⟨path.name, path.key.cls, ownerName, slot⟩

/-! ### Dispatch -/

/-- What dispatch remembers of a member. -/
def memo (s : Session) (path : MemberPath) : Memo := (s.memos.find? path).getD ∅

/-- Runs a dispatch on what is remembered of a member. -/
def withMemo {α : Type} (path : MemberPath) (dispatch : StateM Memo α) : SessionM α := fun s =>
  let (a, memo) := dispatch (s.memo path)
  (a, { s with memos := s.memos.put path memo })

/-- Notes a search among the overloads of a member. -/
def noteSearch (m : Member) (signature : Signature) (r : Resolution) : SessionM Unit :=
  match r.route with
  | .searched _ =>
    note (.searchedOverloads m.ownerName m.name signature (r.binding.map Binding.signature))
  | _ => return

/-- Dispatches a call of a member without calling it. -/
def resolve (env : Environment) (path : MemberPath) (m : Member) (signature : Signature) :
    SessionM Resolution := do
  let r ← withMemo path (m.slot.resolve env.accepts signature)
  noteSearch m signature r
  return r

/-- Dispatches a call of a member in order to call it. -/
def choose (env : Environment) (path : MemberPath) (m : Member) (signature : Signature) :
    SessionM (Option Resolution) := do
  let choice ← withMemo path (m.choose env.accepts signature)
  choice.forM (noteSearch m signature)
  return choice

end ScriptSurface.Session
