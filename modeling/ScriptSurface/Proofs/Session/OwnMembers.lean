import ScriptSurface.Proofs.Member.Enumeration
import ScriptSurface.Proofs.Member.OwnMembers
import ScriptSurface.Proofs.Session.Members
import ScriptSurface.Proofs.Session.Tables

/-!
# The own members a session answers

The own members of a class are the table that its eligible fields and methods give when they are
gone through in order (`Session.tableOf_own_isOwn`).  The order is the one they are declared in or a
stable sort of it, as the options say, so it is determined (`DiscoveryOrder.Arranges.iff_eq`).
-/

namespace ScriptSurface

open Descriptor (Key)
open Std (TransCmp)

/-! ### The order of discovery -/

/-- The second list is the first one in the order of discovery: as it is, or sorted stably. -/
def DiscoveryOrder.Arranges {α : Type} (order : DiscoveryOrder) (cmp : α → α → Ordering)
    (declared arranged : List α) : Prop :=
  match order with
  | .declared => arranged = declared
  | .sortedByName => Order.IsStableSort cmp declared arranged

/-- There is only one list in the order of discovery. -/
theorem DiscoveryOrder.Arranges.iff_eq {α : Type} {order : DiscoveryOrder}
    {cmp : α → α → Ordering} [TransCmp cmp] {declared arranged : List α}
    (h : order.Arranges cmp declared arranged) (l : List α) :
    order.Arranges cmp declared l ↔ l = arranged := by
  constructor
  · intro h'
    cases order with
    | sortedByName => exact Order.IsStableSort.unique cmp h' h
    | declared => exact Eq.trans h' (Eq.symm h)
  · rintro rfl
    exact h

namespace Environment

/-- Compares fields by raw name. -/
def fieldOrder (a b : FieldDecl) : Ordering := Order.texts a.name b.name

instance : TransCmp fieldOrder := Order.transCmp_pullback FieldDecl.name

theorem arranges_eligibleFields (env : Environment) (c : ClassId) :
    env.options.discoveryOrder.Arranges fieldOrder
      ((env.types.fields c).filter env.isEligibleField) (env.eligibleFields c) := by
  unfold eligibleFields
  cases env.options.discoveryOrder with
  | sortedByName => exact Order.isStableSort_sort fieldOrder _
  | declared => rfl

theorem arranges_eligibleMethods (env : Environment) (c : ClassId) :
    env.options.discoveryOrder.Arranges methodOrder
      ((env.types.methods c).filter env.isEligibleMethod) (env.eligibleMethods c) := by
  unfold eligibleMethods
  cases env.options.discoveryOrder with
  | sortedByName => exact Order.isStableSort_sort methodOrder _
  | declared => rfl

/-- Only the universal base type can have its members withheld. -/
theorem isWithheld_cls_ofClass {env : Environment} {c : ClassId}
    (hc : c ≠ ClassId.object ∨ env.options.exposeBaseTypeMembers = true) :
    env.isWithheld (Key.ofClass env.types c).cls = false := by
  rcases hc with hc | hexpose
  · have hcls : (Key.ofClass env.types c).cls ≠ ClassId.object := by
      unfold Key.ofClass
      rw [if_neg hc]
      split_ifs
      · decide
      · decide
      · exact hc
    simp [isWithheld, hcls]
  · simp [isWithheld, hexpose]

end Environment

namespace Session

/-! ### The answer -/

theorem answer_tableOf_own (env : Environment) (requests : List Request) (c : ClassId) :
    answer env requests (tableOf env .own c) = env.ownMembers (Key.ofClass env.types c).cls := by
  have hs := keepsDrawn_describe c _ (drawn_after env requests)
  rw [← fst_describe env.types c (after env requests)]
  exact (ensures_ownMembers_of_drawn env _ _ hs).1

/-- **Own members in closed form.**  Whatever was asked before, the own members of a class are those
that the eligible fields and methods give, which are gone through as they are declared or in the
stable order of their raw names and parameters; there is only one such order.  The names are those
of the fields, of the methods and of the properties they are accessors of; behind a name are the
last field of the name, the last getter and the last setter of the property, and for each signature
the last method of the name.  The universal base type is set apart only where its members are not
exposed. -/
theorem tableOf_own_isOwn (env : Environment) (requests : List Request) (c : ClassId)
    (hc : c ≠ ClassId.object ∨ env.options.exposeBaseTypeMembers = true) :
    ∃ fields methods,
      (∀ l, env.options.discoveryOrder.Arranges Environment.fieldOrder
        ((env.types.fields (Key.ofClass env.types c).cls).filter env.isEligibleField) l
          ↔ l = fields) ∧
      (∀ l, env.options.discoveryOrder.Arranges Environment.methodOrder
        ((env.types.methods (Key.ofClass env.types c).cls).filter env.isEligibleMethod) l
          ↔ l = methods) ∧
      (answer env requests (tableOf env .own c)).IsOwn env (Key.ofClass env.types c).cls fields
        methods := by
  have hwithheld := Environment.isWithheld_cls_ofClass hc
  refine ⟨_, _, (env.arranges_eligibleFields _).iff_eq, (env.arranges_eligibleMethods _).iff_eq, ?_⟩
  have hown := env.isOwn_ownMembers (Key.ofClass env.types c).cls
  rw [Environment.exposedFields, Environment.exposedMethods, hwithheld] at hown
  rw [answer_tableOf_own]
  exact hown

/-- In `veiled`, a getter that is not hidden gives class 16 its own property. -/
theorem tableOf_own_isOwn_veiled :
    (16 : ClassId) ≠ ClassId.object ∧
      ((answer veiledEnvironment [.table .merged 17] (tableOf veiledEnvironment .own 16)).slotAt
        "size").getter = some (veiledEnvironment.bindMethod 16 (sizeMethod 16 false)) := by
  obtain ⟨fields, methods, -, hmethods, hown⟩ :=
    tableOf_own_isOwn veiledEnvironment [.table .merged 17] 16 (.inl (by decide))
  obtain rfl : [sizeMethod 16 false] = methods := (hmethods _).1 rfl
  exact ⟨by decide, (hown.slots "size").getter⟩

end Session

end ScriptSurface
