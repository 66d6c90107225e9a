import ScriptSurface.Environment
import ScriptSurface.Failure
import ScriptSurface.Lookup
import ScriptSurface.Member.Dispatch

/-!
# Using members

Scripts read, write and call members, and create instances.  Each of these performs at most one call
on the host and wraps what comes of it; what the host raises becomes a failure of the member.

A `Host` performs calls.  It may change its state and may raise, and nothing else is asked of it.
`Host.logged` is the same host with a log of the calls made, each noted before it acts.
-/

namespace ScriptSurface

/-- A call on the host, with values of type `ω`; a missing value is null. -/
inductive HostCall (ω : Type) where
  /-- Runs a method, or a constructor without a receiver. -/
  | call (executable : Executable) (receiver : Option ω) (args : List (Option ω))
  /-- Reads a field. -/
  | get (field : FieldDecl) (receiver : Option ω)
  /-- Writes a field; what it answers does not count. -/
  | set (field : FieldDecl) (receiver : Option ω) (value : Option ω)

/-- A host that performs calls on a state of type `σ` and may raise an `ε`. -/
abbrev Host (ω σ ε : Type) := HostCall ω → ExceptT ε (StateM σ) (Option ω)

/-- A host that keeps a log of the calls made, latest last. -/
def Host.logged {ω σ ε : Type} (host : Host ω σ ε) : Host ω (σ × List (HostCall ω)) ε :=
  fun call (state, log) =>
    let (answer, state) := host call state
    (answer, state, log ++ [call])

/-- A member: a slot with its name and the type whose members it is among. -/
structure Member where
  /-- The visible name. -/
  name : String
  /-- The type whose members it is among. -/
  owner : ClassId
  /-- The name of that type. -/
  ownerName : String
  /-- What is behind the name. -/
  slot : Slot

namespace Member

variable {ω σ ε : Type}

/-- What using members comes to: an answer or a failure, and the host's state after it. -/
abbrev Use (σ ε α : Type) := ExceptT (Failure ε) (StateM σ) α

/-- Performs a call for a member of a type; what the host raises becomes a failure. -/
def perform (host : Host ω σ ε) (owner member : String) (call : HostCall ω) :
    Use σ ε (Option ω) := fun state =>
  match host call state with
  | (.ok answer, state) => (.ok answer, state)
  | (.error cause, state) => (.error (.invocation owner member cause), state)

/-- Reads a member, through its getter rather than its field. -/
def read (host : Host ω σ ε) (m : Member) (receiver : Option ω) : Use σ ε (Lookup ω) :=
  match m.slot.getter, m.slot.field with
  | some getter, _ => do
    return .present (← perform host m.ownerName m.name (.call getter.executable receiver []))
  | none, some field => do
    return .present (← perform host m.ownerName m.name (.get field receiver))
  | none, none => return .absent

/-- Writes a member, through its setter rather than its field.  Final fields, and properties
without a setter, refuse to be written. -/
def write (host : Host ω σ ε) (m : Member) (receiver value : Option ω) : Use σ ε (Lookup ω) :=
  match m.slot.setter, m.slot.field with
  | some setter, _ => do
    return .present (← perform host m.ownerName m.name (.call setter.executable receiver [value]))
  | none, some field =>
    if field.isFinal then throw (.immutableWrite m.ownerName m.name)
    else do
      let _ ← perform host m.ownerName m.name (.set field receiver value)
      return .null
  | none, none =>
    if m.slot.getter.isSome then throw (.immutableWrite m.ownerName m.name) else return .absent

/-- Dispatches a call of a member; there is nothing to dispatch to if scripts can call no
overload. -/
def choose (accepts : Signature → Signature → Bool) (m : Member) (s : Signature) :
    StateM Memo (Option Resolution) :=
  if m.slot.hasVisible then some <$> m.slot.resolve accepts s else return none

/-- Calls what a call of a member was dispatched to; `shape` shows its signature. -/
def invokeChosen (host : Host ω σ ε) (m : Member) (shape : String) (choice : Option Resolution)
    (receiver : Option ω) (args : List (Option ω)) : Use σ ε (Lookup ω) :=
  match choice with
  | none => return .absent
  | some resolution =>
    match resolution.binding with
    | none => throw (.notApplicable m.ownerName m.name shape)
    | some b => do
      return .present (← perform host m.ownerName m.name (.call b.executable receiver args))

/-- Calls a member. -/
def invoke (env : Environment) (host : Host ω σ ε) (m : Member) (s : Signature)
    (receiver : Option ω) (args : List (Option ω)) (memo : Memo) : Use σ ε (Lookup ω) × Memo :=
  let (choice, memo) := m.choose env.accepts s memo
  (m.invokeChosen host (s.display env.types) choice receiver args, memo)

/-- Creates an instance of a type through the constructor with exactly the given signature. -/
def construct (host : Host ω σ ε) (ownerName : String) (constructors : Overloads) (s : Signature)
    (args : List (Option ω)) : Use σ ε (Lookup ω) :=
  match constructors.find? s with
  | none => return .absent
  | some b => do
    let call := HostCall.call b.executable none args
    return .present (← perform host ownerName Executable.constructorName call)

end Member

end ScriptSurface
