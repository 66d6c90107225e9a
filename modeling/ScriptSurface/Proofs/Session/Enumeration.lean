import ScriptSurface.Proofs.Member.Enumeration
import ScriptSurface.Proofs.Session.Replies

/-!
# Sessions of hosts that report in another order

Two hosts that report the fields and methods of each class in different orders have the same own
members under sorted discovery.  They have the same hierarchy too, so all that their environments
call for is the same (`Session.expected_eq_of_reorders`), and so is every reply of their sessions
(`Session.reply_eq_of_reorders`).
-/

namespace ScriptSurface

open Descriptor (Key)

/-- The same host, which reports fields and methods from back to front. -/
def HostTypes.reversed (h : HostTypes) : HostTypes :=
  { h with
    fields := fun c => (h.fields c).reverse
    methods := fun c => (h.methods c).reverse }

theorem HostTypes.reorders_reversed (h : HostTypes) : h.Reorders h.reversed where
  rest := rfl
  fields c := (List.reverse_perm (h.fields c)).symm
  methods c := (List.reverse_perm (h.methods c)).symm

/-- Mappings do not go by fields and methods. -/
theorem HostTypes.Reorders.mapping_of {h h' : HostTypes} (hreorders : h.Reorders h') (limit : ℕ)
    (c : ClassId) : Mapping.of h' limit c = Mapping.of h limit c := by
  obtain ⟨fields, methods, rfl⟩ : ∃ fields methods,
      h' = { h with fields := fields, methods := methods } :=
    ⟨_, _, hreorders.rest⟩
  have hwithin : ∀ n, Mapping.within { h with fields := fields, methods := methods } limit n
      = Mapping.within h limit n := by
    intro n
    induction n with
    | zero => rfl
    | succ n ih =>
      funext c
      rw [Mapping.within, Mapping.within, ih]
      rfl
  exact congrFun (hwithin _) c

namespace Session

variable {env : Environment} {types : HostTypes}

/-- Environments call for the same replies if their hosts differ only in the order in which they
report. -/
theorem expected_eq_of_reorders (hsorted : env.options.discoveryOrder = .sortedByName)
    (hreorders : env.types.Reorders types) (honce : env.types.DeclaresOnce) (r : Request) :
    r.expected { env with types := types } = r.expected env := by
  have hown : ∀ c, { env with types := types }.ownMembers c = env.ownMembers c :=
    Environment.ownMembers_eq_of_reorders hsorted hreorders honce
  have hmapping := hreorders.mapping_of env.limit
  obtain ⟨fields, methods, rfl⟩ : ∃ fields methods,
      types = { env.types with fields := fields, methods := methods } :=
    ⟨_, _, hreorders.rest⟩
  have htable : ∀ key scope,
      { env with types := { env.types with fields := fields, methods := methods } }.table key scope
        = env.table key scope := by
    intro key scope
    cases scope with
    | own => exact hown key.cls
    | merged =>
      -- the walk is the same, and so is what each type on it adds
      exact congrArg MemberTable.merge (List.map_congr_left fun k _ => hown k.cls)
  have hmember : ∀ path,
      { env with types := { env.types with fields := fields, methods := methods } }.member? path
        = env.member? path := by
    intro path
    unfold Environment.member?
    rw [htable]
    rfl
  cases r with
  | table scope c => exact congrArg Reply.table (htable _ scope)
  | member scope c name => exact congrArg Reply.member (hmember _)
  | resolve scope c name signature =>
    exact congrArg (fun m : Option Member => Reply.binding
      (m.map fun m => m.slot.select env.accepts signature)) (hmember _)
  | choose scope c name signature =>
    exact congrArg (fun m : Option Member => Reply.binding (m.bind fun m =>
      if m.slot.hasVisible then some (m.slot.select env.accepts signature) else none)) (hmember _)
  | mapping c => exact congrArg Reply.mapping (hmapping c)
  | inTermsOf c t =>
    exact congrArg (fun m : Mapping => Reply.type (t.substitute? m.find? env.limit 0)) (hmapping c)
  | allInTermsOf c ts =>
    exact congrArg (fun m : Mapping =>
      Reply.types (TypeExpr.substituteAll? m.find? env.limit 0 ts)) (hmapping c)
  | _ => rfl

/-- **Sorted discovery does not go by the order in which the host reports.**  Two hosts with an
acyclic hierarchy, which differ only in the order in which they report the fields and methods of
each class, have the same own and merged members, with the same overloads in the same order, and
their sessions give the same replies.  This is so under any options but for the sorted order, any
names and any calls that overloads take, and whatever either session was asked before. -/
theorem reply_eq_of_reorders (hac : env.types.Acyclic)
    (hsorted : env.options.discoveryOrder = .sortedByName) (hreorders : env.types.Reorders types)
    (honce : env.types.DeclaresOnce) (requests requests' : List Request) :
    (∀ scope c, answer { env with types := types } requests'
        (tableOf { env with types := types } scope c)
      = answer env requests (tableOf env scope c)) ∧
    ∀ r : Request, answer { env with types := types } requests'
        (r.reply { env with types := types })
      = answer env requests (r.reply env) := by
  have hac' : { env with types := types }.types.Acyclic := by
    show types.Acyclic
    rw [hreorders.rest]
    exact hac
  have hreply : ∀ r : Request, answer { env with types := types } requests'
        (r.reply { env with types := types })
      = answer env requests (r.reply env) := by
    intro r
    rw [answer_reply hac, answer_reply hac']
    exact expected_eq_of_reorders hsorted hreorders honce r
  exact ⟨fun scope c => Reply.table.inj (hreply (.table scope c)), hreply⟩

/-! ### A host that reports from back to front -/

/-- A method `print` of class 16 with one parameter. -/
def printMethod (param : ClassId) : Executable :=
  { Executable.declareMethod "print" [.plain param .anonymous] (.plain ClassId.int .anonymous) 0 with
    declaring := 16 }

/-- A host where class 16 declares two fields, and a method `print` for text before one for
anything. -/
def printer : HostTypes where
  kind _ := .concrete
  name c := c.digits
  superclass c := if c = 16 then some ClassId.object else none
  interfaces _ := []
  typeParams _ := []
  genericSuperclass c := if c = 16 then some TypeExpr.object else none
  genericInterfaces _ := []
  fields c :=
    if c = 16 then [.declare "width" .unknown 0, .declare "height" .unknown 0] else []
  methods c :=
    if c = 16 then [printMethod ClassId.string, printMethod ClassId.object] else []
  constructors _ := []
  strippedPrefixes _ := []

/-- The environment of `printer` where overloads take all calls. -/
def printerEnvironment : Environment :=
  { Environment.plain printer with accepts := fun _ _ => true }

theorem acyclic_printer : printerEnvironment.types.Acyclic := by
  refine acyclic_of_measure (fun c => if c = 16 then 1 else 0) ?_
  intro c p hp
  simp only [HostTypes.supertypes, printerEnvironment, Environment.plain, printer] at hp
  split_ifs at hp with hc
  · obtain rfl : p = ClassId.object := by simpa using hp
    rw [hc]
    decide
  · simp at hp

theorem declaresOnce_printer : printerEnvironment.types.DeclaresOnce where
  fields c := by
    simp only [printerEnvironment, Environment.plain, printer]
    split_ifs <;> decide
  methods c := by
    simp only [printerEnvironment, Environment.plain, printer]
    split_ifs <;> decide

/-- A call of `print` with a number goes to the same overload whether `printer` reports its methods
from front to back or from back to front. -/
theorem reply_eq_of_reorders_printer :
    printerEnvironment.types.Acyclic ∧
      printerEnvironment.options.discoveryOrder = .sortedByName ∧
      printerEnvironment.types.Reorders printer.reversed ∧
      printerEnvironment.types.DeclaresOnce ∧
      answer { printerEnvironment with types := printer.reversed } [.table .own 16]
          (Request.reply { printerEnvironment with types := printer.reversed }
            (.resolve .merged 16 "print" ⟨[ClassId.int]⟩))
        = answer printerEnvironment []
          (Request.reply printerEnvironment (.resolve .merged 16 "print" ⟨[ClassId.int]⟩)) :=
  ⟨acyclic_printer, rfl, HostTypes.reorders_reversed printer, declaresOnce_printer,
    (reply_eq_of_reorders acyclic_printer rfl (HostTypes.reorders_reversed printer)
      declaresOnce_printer [] [.table .own 16]).2 _⟩

end Session

end ScriptSurface
