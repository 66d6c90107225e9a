import ScriptSurface.Session

/-!
# Mappings in a session

The mapping of a class is composed on first request, which composes the mappings of its supertypes
before it, and is kept.  An empty mapping is always the shared one.
-/

namespace ScriptSurface.Session

/-- Notes the parts that lie too deep to substitute in. -/
def noteTooDeep (limit : Nat) (parts : List TypeExpr) : SessionM Unit :=
  parts.forM fun t => note (.tooDeep t limit)

/-- The mapping of a class, through at most so many generations. -/
def mappingWithin (h : HostTypes) (limit : Nat) : Nat → ClassId → SessionM Mapping
  | 0, _ => return Mapping.shared
  | n + 1, c => do
    if Mapping.isTrivial h c then return Mapping.shared
    if let some m := (← get).mappings.find? c then return m
    let direct := Mapping.direct h c
    let inherited ← (h.supertypes c).mapM fun parent => do
      let m ← mappingWithin h limit n parent
      noteTooDeep limit (m.beyond limit)
      return m
    let table := Mapping.compose direct limit inherited
    note (.composedMapping c (h.name c) table.size)
    let m := (Mapping.ofTable table).share
    modify fun s => { s with mappings := s.mappings.put c m }
    return m

/-- The mapping of a class. -/
def mapping (h : HostTypes) (limit : Nat) (c : ClassId) : SessionM Mapping :=
  mappingWithin h limit ClassId.count c

/-- What becomes of a type in the terms of a class, or `none` if it stays the instance it is. -/
def inTermsOf? (env : Environment) (c : ClassId) (t : TypeExpr) :
    SessionM (Option TypeExpr) := do
  let m ← mapping env.types env.limit c
  noteTooDeep env.limit (t.beyond env.limit 0)
  return t.substitute? m.find? env.limit 0

/-- What becomes of types in the terms of a class, or `none` if they stay the list they are. -/
def allInTermsOf? (env : Environment) (c : ClassId) (ts : List TypeExpr) :
    SessionM (Option (List TypeExpr)) := do
  let m ← mapping env.types env.limit c
  noteTooDeep env.limit (TypeExpr.beyondAll env.limit 0 ts)
  return TypeExpr.substituteAll? m.find? env.limit 0 ts

end ScriptSurface.Session
