import ScriptSurface.Naming
import ScriptSurface.Options
import ScriptSurface.Signature

/-!
# Environments

An `Environment` is all that decides what scripts see of a host's types: what the host reports, who
names the members, which calls an overload takes, and the options.
-/

namespace ScriptSurface

/-- What decides which members scripts see, and how calls find them. -/
structure Environment where
  /-- What the host reports about its types. -/
  types : HostTypes
  /-- Who overrides the names of members. -/
  renamer : Renamer
  /-- Whether a callable with the first signature takes a call of the second one. -/
  accepts : Signature → Signature → Bool
  /-- The options. -/
  options : Options

namespace Environment

/-- Takes only calls of the very signature. -/
def acceptsExactly (candidate requested : Signature) : Bool := candidate = requested

/-- The environment with raw names, exact calls and default options. -/
def plain (types : HostTypes) : Environment :=
  ⟨types, Renamer.identity, acceptsExactly, Options.default⟩

/-- The depth limit of substitution. -/
def limit (env : Environment) : Nat := env.options.maxDepth.toNat

end Environment

end ScriptSurface
