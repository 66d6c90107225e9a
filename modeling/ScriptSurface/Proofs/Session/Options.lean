import ScriptSurface.Proofs.Member.Options
import ScriptSurface.Proofs.Session.Computations.Requests
import ScriptSurface.Proofs.Session.Members

/-!
# Options and the members a session answers

Options can be switched on without losing anything (`Session.tableOf_options`).  Whatever sessions
with and without an option were asked before, both the own and the merged members with the option
have what there is without it.
-/

namespace ScriptSurface

open Descriptor (Key)

namespace Environment

variable (env : Environment) (key : Key) (scope : Scope)

theorem addsPropertiesTo_table :
    ((env.withBeanProperties true).table key scope).AddsPropertiesTo
      ((env.withBeanProperties false).table key scope) := by
  cases scope with
  | own => exact env.addsPropertiesTo_ownMembers key.cls
  | merged =>
    exact (MemberTable.isMerge_merge _).addsPropertiesTo (MemberTable.isMerge_merge _) fun k =>
      env.addsPropertiesTo_ownMembers k.cls

theorem extends_table :
    ((env.withProtected true).table key scope).Extends
      ((env.withProtected false).table key scope) := by
  cases scope with
  | own => exact env.extends_ownMembers key.cls
  | merged =>
    exact (MemberTable.isMerge_merge _).extends (MemberTable.isMerge_merge _) fun k =>
      env.extends_ownMembers k.cls

end Environment

namespace Session

theorem answer_tableOf {env : Environment} (hac : env.types.Acyclic) (requests : List Request)
    (scope : Scope) (c : ClassId) :
    answer env requests (tableOf env scope c) = env.table (Key.ofClass env.types c) scope := by
  have hs := knows_after hac requests
  rw [answer, tableOf_eq hac scope c hs]
  exact table_eq (ensures_describe hac c _ hs).2 List.mem_cons_self scope

/-- **Options only add.**  With properties, the own and the merged members of a class have the same
fields and, in the same order, the same overloads as without, hidden or not; what is added are
accessors, names of properties, and the properties that overloads stand for.  With protected
declarations, they have all names and all signatures that they have without. -/
theorem tableOf_options (env : Environment) (hac : env.types.Acyclic)
    (requests requests' : List Request) (scope : Scope) (c : ClassId) :
    (answer (env.withBeanProperties true) requests
        (tableOf (env.withBeanProperties true) scope c)).AddsPropertiesTo
      (answer (env.withBeanProperties false) requests'
        (tableOf (env.withBeanProperties false) scope c)) ∧
    (answer (env.withProtected true) requests (tableOf (env.withProtected true) scope c)).Extends
      (answer (env.withProtected false) requests'
        (tableOf (env.withProtected false) scope c)) := by
  have hproperties : ∀ on, (env.withBeanProperties on).types.Acyclic := fun _ => hac
  have hprotected : ∀ on, (env.withProtected on).types.Acyclic := fun _ => hac
  rw [answer_tableOf (hproperties true), answer_tableOf (hproperties false),
    answer_tableOf (hprotected true), answer_tableOf (hprotected false)]
  exact ⟨env.addsPropertiesTo_table _ scope, env.extends_table _ scope⟩

/-- In `veiled`, class 16 gets the name `size` for a property, and there is nothing new behind the
name of the getter. -/
theorem tableOf_options_veiled :
    veiledEnvironment.types.Acyclic ∧
      "size" ∈ (answer (veiledEnvironment.withBeanProperties true) [.table .merged 17]
        (tableOf (veiledEnvironment.withBeanProperties true) .own 16)).keys ∧
      ((answer (veiledEnvironment.withBeanProperties true) [.table .merged 17]
          (tableOf (veiledEnvironment.withBeanProperties true) .own 16)).slotAt
            "getSize").overloads.keys
        = ((answer (veiledEnvironment.withBeanProperties false) []
            (tableOf (veiledEnvironment.withBeanProperties false) .own 16)).slotAt
              "getSize").overloads.keys := by
  have hac : (veiledEnvironment.withBeanProperties true).types.Acyclic := acyclic_veiled
  have hadds :=
    (tableOf_options veiledEnvironment acyclic_veiled [.table .merged 17] [] .own 16).1
  refine ⟨acyclic_veiled, (hadds.names "size").2 (.inr ?_), (hadds.slots "getSize").signatures⟩
  rw [answer_tableOf hac]
  decide +kernel

end Session

end ScriptSurface
