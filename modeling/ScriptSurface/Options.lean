/-!
# Options of an environment

An environment is told by its `Options` which members scripts see and in which order the members
of a class are gone through.  Every option has a default.
-/

namespace ScriptSurface

/-- The order in which the declared members of a class are gone through. -/
inductive DiscoveryOrder where
  /-- By raw name, and methods of one name by their parameters. -/
  | sortedByName
  /-- As the host reports them. -/
  | declared
deriving DecidableEq, Inhabited

/-- What an environment can be told. -/
structure Options where
  /-- The order in which declared members are gone through. -/
  discoveryOrder : DiscoveryOrder
  /-- Whether methods named like getters and setters make properties. -/
  beanProperties : Bool
  /-- Whether the universal base type has members of its own. -/
  exposeBaseTypeMembers : Bool
  /-- Whether protected fields and methods are exposed; constructors are only ever public. -/
  includeProtected : Bool
  /-- How deep substitution goes. -/
  maxDepth : UInt32
deriving DecidableEq

namespace Options

/-- How deep substitution goes by default. -/
def defaultMaxDepth : UInt32 := 50

/-- The options that hold when nothing is said. -/
def default : Options where
  discoveryOrder := .sortedByName
  beanProperties := true
  exposeBaseTypeMembers := false
  includeProtected := false
  maxDepth := defaultMaxDepth

instance : Inhabited Options := ⟨default⟩

end Options

end ScriptSurface
