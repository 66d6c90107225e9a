import Mathlib.Data.List.Induction
import ScriptSurface.Proofs.Member.Accessors

/-!
# What own members come from

`MemberTable.IsOwn env c fields methods t` says, without going through declarations step by step,
which table `t` a class gets from fields and methods that are gone through in order.  Behind a name
there are

* the last field of that name,
* the last method that is a getter of the property of that name, and the last one that is a setter,
* for each signature the last method of that name and signature, in the order in which the
  signatures of that name first appear.

What is found of a method is the method itself, with its parameters as the signature, hidden if it
is declared so, and with the property it is an accessor of (`Binding.IsOf`).

`Environment.isOwn_ownMembers` says that own members are that table for the fields and methods a
class exposes.  Each step adds one declaration at the end, so the invariant is `IsOwn` of the
declarations so far (`MemberTable.IsOwn.addField`, `MemberTable.IsOwn.addMethod`).
-/

namespace ScriptSurface

/-! ### Slots of a table -/

namespace MemberTable

/-- What is behind a name; nothing is behind a name that is not in the table. -/
def slotAt (t : MemberTable) (n : String) : Slot := (t.find? n).getD Slot.empty

theorem slotAt_of_find? {t : MemberTable} {n : String} {s : Slot} (h : t.find? n = some s) :
    t.slotAt n = s := by
  rw [slotAt, h, Option.getD_some]

theorem slotAt_change (t : MemberTable) (name n : String) (f : Slot → Slot) :
    (t.change name f).slotAt n = if name = n then f (t.slotAt n) else t.slotAt n := by
  unfold slotAt
  rw [find?_change]
  split_ifs <;> rfl

theorem mem_keys_change (t : MemberTable) (name n : String) (f : Slot → Slot) :
    n ∈ (t.change name f).keys ↔ name = n ∨ n ∈ t.keys := by
  rw [change, Assoc.alter, Assoc.mem_keys_put, eq_comm]

theorem overload?_eq_slotAt (t : MemberTable) (n : String) (σ : Signature) :
    t.overload? n σ = (t.slotAt n).overloads.find? σ := by
  unfold overload? slotAt
  cases t.find? n <;> rfl

end MemberTable

/-! ### The description -/

/-- A candidate is what a method of a class gives. -/
structure Binding.IsOf (env : Environment) (c : ClassId) (m : Executable) (b : Binding) :
    Prop where
  /-- Calls run the method. -/
  executable : b.executable = m
  /-- It is called by its parameters. -/
  signature : b.signature.types = m.params
  /-- It is kept from scripts if the method is. -/
  hidden : b.hidden = m.hidden
  /-- It stands for the property that the method is an accessor of. -/
  property : ∀ p, b.property = some p ↔ ∃ a, env.accessor? c m = some (a, p)

theorem Environment.isOf_bindMethod (env : Environment) (c : ClassId) (m : Executable) :
    (env.bindMethod c m).IsOf env c m where
  executable := rfl
  signature := rfl
  hidden := rfl
  property p := by
    show (env.accessor? c m).map Prod.snd = some p ↔ _
    simp

section

variable (env : Environment) (c : ClassId) (fields : List FieldDecl) (methods : List Executable)

/-- What is behind a name comes from the fields and methods of a class. -/
structure Slot.IsOwn (n : String) (s : Slot) : Prop where
  /-- The last field of the name counts. -/
  field : s.field = fields.reverse.find? fun f => env.fieldName c f = n
  /-- The last getter of the property counts. -/
  getter : s.getter
    = (methods.reverse.find? fun m => env.accessor? c m = some (.getter, n)).map (env.bindMethod c)
  /-- The last setter of the property counts. -/
  setter : s.setter
    = (methods.reverse.find? fun m => env.accessor? c m = some (.setter, n)).map (env.bindMethod c)
  /-- The signatures are those of the methods of the name, in the order of their first
  appearance. -/
  signatures : s.overloads.keys
    = ((methods.filter fun m => env.methodName c m = n).map fun m => ⟨m.params⟩).eraseDups
  /-- The last method of the name with a signature counts. -/
  overload : ∀ σ, s.overloads.find? σ
    = (methods.reverse.find? fun m => env.methodName c m = n ∧ (⟨m.params⟩ : Signature) = σ).map
        (env.bindMethod c)

/-- A table comes from the fields and methods of a class. -/
structure MemberTable.IsOwn (t : MemberTable) : Prop where
  /-- The names are those of the fields, the methods and the properties. -/
  names : ∀ n, n ∈ t.keys ↔
    (∃ f ∈ fields, env.fieldName c f = n) ∨
      ∃ m ∈ methods, env.methodName c m = n ∨ ∃ a, env.accessor? c m = some (a, n)
  /-- What is behind a name comes from them. -/
  slots : ∀ n, (t.slotAt n).IsOwn env c fields methods n
  /-- What is found of a method is the method. -/
  candidates : ∀ m, (env.bindMethod c m).IsOf env c m

end

namespace MemberTable.IsOwn

variable {env : Environment} {c : ClassId} {fields : List FieldDecl} {methods : List Executable}
  {t : MemberTable}

theorem empty (env : Environment) (c : ClassId) : (∅ : MemberTable).IsOwn env c [] [] where
  names n := by simp
  slots n := ⟨rfl, rfl, rfl, rfl, fun _ => rfl⟩
  candidates := env.isOf_bindMethod c

/-- A field counts before all fields of its name that were there. -/
theorem addField (h : t.IsOwn env c fields []) (f : FieldDecl) :
    (env.addField c t f).IsOwn env c (fields ++ [f]) [] where
  names n := by
    rw [Environment.addField, mem_keys_change, h.names]
    simp [or_and_right, exists_or, or_comm]
  slots n := by
    have hslot := h.slots n
    rw [Environment.addField, slotAt_change]
    split_ifs with hn
    · refine ⟨?_, hslot.getter, hslot.setter, hslot.signatures, hslot.overload⟩
      rw [find?_reverse_append_singleton, if_pos (by simpa using hn)]
      rfl
    · refine ⟨?_, hslot.getter, hslot.setter, hslot.signatures, hslot.overload⟩
      rw [find?_reverse_append_singleton, if_neg (by simpa using hn), hslot.field]
  candidates := h.candidates

/-- What a method adds to what is behind a name. -/
theorem slotAt_addMethod (t : MemberTable) (m : Executable) (n : String) :
    (env.addMethod c t m).slotAt n
      = { field := (t.slotAt n).field
          getter := if env.accessor? c m = some (.getter, n) then some (env.bindMethod c m)
            else (t.slotAt n).getter
          setter := if env.accessor? c m = some (.setter, n) then some (env.bindMethod c m)
            else (t.slotAt n).setter
          overloads := if env.methodName c m = n
            then (t.slotAt n).overloads.put ⟨m.params⟩ (env.bindMethod c m)
            else (t.slotAt n).overloads } := by
  have haccessor : (env.addAccessor c t m).slotAt n
      = { t.slotAt n with
          getter := if env.accessor? c m = some (.getter, n) then some (env.bindMethod c m)
            else (t.slotAt n).getter
          setter := if env.accessor? c m = some (.setter, n) then some (env.bindMethod c m)
            else (t.slotAt n).setter } := by
    unfold Environment.addAccessor
    split
    · next property hget =>
      rw [slotAt_change, hget]
      by_cases hn : property = n <;> simp [hn, Slot.setGetter]
    · next property hset =>
      rw [slotAt_change, hset]
      by_cases hn : property = n <;> simp [hn, Slot.setSetter]
    · next hnone => simp [hnone]
  rw [Environment.addMethod_eq, slotAt_change, haccessor]
  split_ifs <;> rfl

theorem mem_keys_addAccessor (t : MemberTable) (m : Executable) (n : String) :
    n ∈ (env.addAccessor c t m).keys ↔ (∃ a, env.accessor? c m = some (a, n)) ∨ n ∈ t.keys := by
  unfold Environment.addAccessor
  split
  · next property hget => simp [mem_keys_change, hget]
  · next property hset => simp [mem_keys_change, hset]
  · next hnone => simp [hnone]

/-- A method counts before all methods that were there, as an overload and as an accessor. -/
theorem addMethod (h : t.IsOwn env c fields methods) (m : Executable) :
    (env.addMethod c t m).IsOwn env c fields (methods ++ [m]) where
  names n := by
    rw [Environment.addMethod_eq, mem_keys_change, mem_keys_addAccessor, h.names]
    simp only [List.mem_append, List.mem_singleton, or_and_right, exists_or, exists_eq_left]
    rw [← or_assoc, or_comm, or_assoc]
  slots n := by
    have hslot := h.slots n
    have hlast : ∀ p : Executable → Bool,
        ((methods ++ [m]).reverse.find? p).map (env.bindMethod c)
          = if p m then some (env.bindMethod c m)
            else (methods.reverse.find? p).map (env.bindMethod c) := by
      intro p
      rw [find?_reverse_append_singleton]
      split_ifs <;> rfl
    rw [slotAt_addMethod]
    refine ⟨hslot.field, ?_, ?_, ?_, fun σ => ?_⟩
    · rw [hlast, hslot.getter]
      simp only [decide_eq_true_eq]
    · rw [hlast, hslot.setter]
      simp only [decide_eq_true_eq]
    · have hkeys : ((t.slotAt n).overloads.put ⟨m.params⟩ (env.bindMethod c m)).keys
          = ((t.slotAt n).overloads.keys ++ [(⟨m.params⟩ : Signature)]).eraseDups :=
        Assoc.keys_alter _ _ fun _ => env.bindMethod c m
      rw [hslot.signatures, eraseDups_eraseDups_append] at hkeys
      rw [List.filter_append, List.map_append]
      by_cases hn : env.methodName c m = n
      · simpa [hn] using hkeys
      · simpa [hn] using hslot.signatures
    · rw [hlast, ← hslot.overload]
      by_cases hn : env.methodName c m = n
      · simp [hn, Assoc.find?_put]
      · simp [hn]
  candidates := h.candidates

end MemberTable.IsOwn

namespace Environment

variable (env : Environment) (c : ClassId)

/-- The fields of a class that become members, in the order in which they are gone through. -/
def exposedFields : List FieldDecl := if env.isWithheld c then [] else env.eligibleFields c

/-- The methods of a class that become members, in the order in which they are gone through. -/
def exposedMethods : List Executable := if env.isWithheld c then [] else env.eligibleMethods c

/-- Own members come from the fields and methods that a class exposes. -/
theorem isOwn_ownMembers :
    (env.ownMembers c).IsOwn env c (env.exposedFields c) (env.exposedMethods c) := by
  have hfields : ∀ fields : List FieldDecl,
      (fields.foldl (env.addField c) ∅).IsOwn env c fields [] := by
    intro fields
    induction fields using List.reverseRecOn with
    | nil => exact .empty env c
    | append_singleton fields f ih =>
      rw [List.foldl_append]
      exact ih.addField f
  have hmethods : ∀ methods : List Executable,
      (methods.foldl (env.addMethod c) ((env.exposedFields c).foldl (env.addField c) ∅)).IsOwn
        env c (env.exposedFields c) methods := by
    intro methods
    induction methods using List.reverseRecOn with
    | nil => exact hfields _
    | append_singleton methods m ih =>
      rw [List.foldl_append]
      exact ih.addMethod m
  have hown := hmethods (env.exposedMethods c)
  unfold exposedFields exposedMethods at hown ⊢
  unfold ownMembers
  split_ifs at hown ⊢
  · exact hown
  · exact hown

variable {env c}

theorem mem_exposedFields_iff {f : FieldDecl} : f ∈ env.exposedFields c ↔
    env.isWithheld c = false ∧ f ∈ (env.types.fields c).filter env.isEligibleField := by
  unfold exposedFields eligibleFields Order.sortByText
  cases env.isWithheld c <;> cases env.options.discoveryOrder <;> simp [List.mem_mergeSort]

theorem mem_exposedMethods_iff {m : Executable} : m ∈ env.exposedMethods c ↔
    env.isWithheld c = false ∧ m ∈ (env.types.methods c).filter env.isEligibleMethod := by
  unfold exposedMethods eligibleMethods
  cases env.isWithheld c <;> cases env.options.discoveryOrder <;> simp [List.mem_mergeSort]

end Environment

end ScriptSurface
