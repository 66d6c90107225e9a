import ScriptSurface.Proofs.Member.OwnMembers

/-!
# Properties

A method that is an accessor of a property goes into two slots: into the one of the property as its
getter or setter, and into the one of its own name as an overload that stands for the property.
`MemberTable.HasProperties` says that the two fit together.  Accessors are callables of the shape
that accessors have, and where an overload stands for a property, the table has an accessor of the
property of the same shape.  That need not be the very method: later methods replace earlier ones in
each slot for itself, and a merge keeps the first accessor but the last overload.

Own members have their properties in order because an accessor is only ever replaced by another one
(`Environment.hasProperties_ownMembers`), and a merge has if the tables on its walk have, because it
keeps a slot's accessor if one of them has one (`MemberTable.IsMerge.hasProperties`).
-/

namespace ScriptSurface

/-! ### Accessors by shape -/

/-- Whether a callable is what the getter of a property has to be. -/
structure Binding.IsGetterOf (b : Binding) (p : String) : Prop where
  /-- It stands for the property. -/
  property : b.property = some p
  /-- It takes no argument. -/
  signature : b.signature.isEmpty = true
  /-- It returns something. -/
  returns : b.executable.returns.isVoid = false
  /-- Scripts can call it. -/
  hidden : b.hidden = false

/-- Whether a callable is what the setter of a property has to be. -/
structure Binding.IsSetterOf (b : Binding) (p : String) : Prop where
  /-- It stands for the property. -/
  property : b.property = some p
  /-- It takes one argument. -/
  signature : b.signature.length = 1
  /-- Scripts can call it. -/
  hidden : b.hidden = false

/-- Whether a slot has an accessor that is called by a signature: a getter takes no argument and a
setter takes one. -/
def Slot.HasAccessorFor (s : Slot) (σ : Signature) : Prop :=
  σ.isEmpty = true ∧ s.getter.isSome = true ∨ σ.length = 1 ∧ s.setter.isSome = true

/-- The accessors in a table are such, and where an overload stands for a property, there is an
accessor of the property that is called by its signature. -/
structure MemberTable.HasProperties (t : MemberTable) : Prop where
  /-- Getters are getters of the property under whose name they are. -/
  getter : ∀ n slot b, t.find? n = some slot → slot.getter = some b → b.IsGetterOf n
  /-- Setters are setters of the property under whose name they are. -/
  setter : ∀ n slot b, t.find? n = some slot → slot.setter = some b → b.IsSetterOf n
  /-- What stands for a property has an accessor of the property beside it. -/
  overload : ∀ n σ b p, t.overload? n σ = some b → b.property = some p →
    ∃ slot, t.find? p = some slot ∧ slot.HasAccessorFor b.signature

/-! ### Own members -/

theorem ClassId.isVoid_of_isBoolean {c : ClassId} (h : c.isBoolean = true) :
    c.isVoid = false := by
  unfold isBoolean at h
  rw [Bool.or_eq_true, decide_eq_true_eq, decide_eq_true_eq] at h
  rcases h with rfl | rfl <;> decide

theorem Accessor.ofMethod?_getter {name p : String} {m : Executable}
    (h : ofMethod? name m = some (.getter, p)) : m.arity = 0 ∧ m.returns.isVoid = false := by
  unfold ofMethod? at h
  split at h
  · split_ifs at h with hm
    simpa using hm
  · split_ifs at h
    simp at h
  · split_ifs at h with hm
    rw [Bool.and_eq_true, decide_eq_true_eq] at hm
    exact ⟨hm.1, ClassId.isVoid_of_isBoolean hm.2⟩
  · cases h

theorem Accessor.ofMethod?_setter {name p : String} {m : Executable}
    (h : ofMethod? name m = some (.setter, p)) : m.arity = 1 := by
  unfold ofMethod? at h
  split at h
  · split_ifs at h
    simp at h
  · split_ifs at h with hm
    exact hm
  · split_ifs at h
    simp at h
  · cases h

namespace Environment

variable (env : Environment) (c : ClassId) {m : Executable} {a : Accessor} {p : String}

theorem ofMethod?_of_accessor? (h : env.accessor? c m = some (a, p)) :
    Accessor.ofMethod? (env.methodName c m) m = some (a, p) := by
  unfold accessor? at h
  split_ifs at h
  exact h

theorem property_bindMethod (h : env.accessor? c m = some (a, p)) :
    (env.bindMethod c m).property = some p := by
  rw [bindMethod, h, Option.map_some]

theorem isGetterOf_bindMethod (h : env.accessor? c m = some (.getter, p)) :
    (env.bindMethod c m).IsGetterOf p := by
  obtain ⟨harity, hreturns⟩ := Accessor.ofMethod?_getter (env.ofMethod?_of_accessor? c h)
  have hparams : m.params = [] := List.eq_nil_of_length_eq_zero harity
  refine ⟨env.property_bindMethod c h, ?_, hreturns, env.hidden_of_accessor? c h⟩
  show m.params.isEmpty = true
  rw [hparams]
  rfl

theorem isSetterOf_bindMethod (h : env.accessor? c m = some (.setter, p)) :
    (env.bindMethod c m).IsSetterOf p :=
  ⟨env.property_bindMethod c h, Accessor.ofMethod?_setter (env.ofMethod?_of_accessor? c h),
    env.hidden_of_accessor? c h⟩

/-- Own accessors fit the overloads that stand for properties. -/
theorem hasProperties_ownMembers : (env.ownMembers c).HasProperties := by
  have hown := env.isOwn_ownMembers c
  have hexists : ∀ {q : Executable → Bool} {b : Binding},
      ((env.exposedMethods c).reverse.find? q).map (env.bindMethod c) = some b →
        ∃ m ∈ env.exposedMethods c, q m = true ∧ env.bindMethod c m = b := by
    intro q b hb
    obtain ⟨m, hm, hmb⟩ := Option.map_eq_some_iff.1 hb
    exact ⟨m, List.mem_reverse.1 (List.mem_of_find?_eq_some hm), List.find?_some hm, hmb⟩
  refine ⟨fun n slot b hslot hb => ?_, fun n slot b hslot hb => ?_, fun n σ b p hb hp => ?_⟩
  · have hslot := MemberTable.slotAt_of_find? hslot ▸ hown.slots n
    obtain ⟨m, -, hm, rfl⟩ := hexists (hslot.getter.symm.trans hb)
    exact env.isGetterOf_bindMethod c (of_decide_eq_true hm)
  · have hslot := MemberTable.slotAt_of_find? hslot ▸ hown.slots n
    obtain ⟨m, -, hm, rfl⟩ := hexists (hslot.setter.symm.trans hb)
    exact env.isSetterOf_bindMethod c (of_decide_eq_true hm)
  · rw [MemberTable.overload?_eq_slotAt, (hown.slots n).overload] at hb
    obtain ⟨m, hm, -, rfl⟩ := hexists hb
    -- the method is itself an accessor of the property, so there is a last one
    obtain ⟨⟨a, p'⟩, ha, rfl⟩ := Option.map_eq_some_iff.1 hp
    have hlast : ((env.exposedMethods c).reverse.find? fun m =>
        env.accessor? c m = some (a, p')).isSome = true := by
      rw [List.find?_isSome]
      exact ⟨m, List.mem_reverse.2 hm, decide_eq_true ha⟩
    obtain ⟨slot, hslot⟩ := Assoc.exists_find?_of_mem_keys
      ((hown.names p').2 (.inr ⟨m, hm, .inr ⟨a, ha⟩⟩))
    refine ⟨slot, hslot, ?_⟩
    have hslot := MemberTable.slotAt_of_find? hslot ▸ hown.slots p'
    cases a with
    | getter =>
      refine .inl ⟨(env.isGetterOf_bindMethod c ha).signature, ?_⟩
      rw [hslot.getter, Option.isSome_map, hlast]
    | setter =>
      refine .inr ⟨(env.isSetterOf_bindMethod c ha).signature, ?_⟩
      rw [hslot.setter, Option.isSome_map, hlast]

end Environment

/-! ### Merges -/

namespace MemberTable

variable {κ : Type} {own : κ → MemberTable} {walk : List κ} {t : MemberTable}

/-- An accessor on the walk makes for one in the merge. -/
theorem IsMerge.hasAccessorFor (h : t.IsMerge (walk.map own)) {k : κ} (hk : k ∈ walk)
    {p : String} {σ : Signature} {s : Slot} (hs : (own k).find? p = some s)
    (haccessor : s.HasAccessorFor σ) :
    ∃ slot, t.find? p = some slot ∧ slot.HasAccessorFor σ := by
  have hmem : s ∈ (walk.map own).filterMap fun o => o.find? p :=
    List.mem_filterMap.2 ⟨own k, List.mem_map_of_mem hk, hs⟩
  obtain ⟨slot, hslot⟩ := Assoc.exists_find?_of_mem_keys
    ((h.names p).2 ⟨own k, List.mem_map_of_mem hk, Assoc.mem_keys_of_find? hs⟩)
  have hmerge := h.slots p slot hslot
  have hfirst : ∀ f : Slot → Option Binding, (f s).isSome = true →
      (((walk.map own).filterMap fun o => o.find? p).findSome? f).isSome = true := by
    intro f hf
    rw [List.isSome_findSome?, List.any_eq_true]
    exact ⟨s, hmem, hf⟩
  refine ⟨slot, hslot, ?_⟩
  rcases haccessor with ⟨hσ, hgetter⟩ | ⟨hσ, hsetter⟩
  · exact .inl ⟨hσ, by rw [hmerge.getter]; exact hfirst _ hgetter⟩
  · exact .inr ⟨hσ, by rw [hmerge.setter]; exact hfirst _ hsetter⟩

/-- A merge has the accessors that its overloads call for if the tables on its walk have. -/
theorem IsMerge.hasProperties (h : t.IsMerge (walk.map own)) (hkeyed : ∀ k, (own k).WellKeyed)
    (hown : ∀ k ∈ walk, (own k).HasProperties) : t.HasProperties := by
  have hfrom : ∀ {n : String} {s : Slot},
      s ∈ ((walk.map own).filterMap fun o => o.find? n) → ∃ k ∈ walk, (own k).find? n = some s := by
    intro n s hs
    simpa [List.mem_filterMap] using hs
  refine ⟨fun n slot b hslot hb => ?_, fun n slot b hslot hb => ?_, fun n σ b p hb hp => ?_⟩
  · rw [(h.slots n slot hslot).getter] at hb
    obtain ⟨s, hs, hgetter⟩ := List.exists_of_findSome?_eq_some hb
    obtain ⟨k, hk, hfind⟩ := hfrom hs
    exact (hown k hk).getter n s b hfind hgetter
  · rw [(h.slots n slot hslot).setter] at hb
    obtain ⟨s, hs, hsetter⟩ := List.exists_of_findSome?_eq_some hb
    obtain ⟨k, hk, hfind⟩ := hfrom hs
    exact (hown k hk).setter n s b hfind hsetter
  · -- the property is the first one on the walk, and all overloads there have the signature
    rw [h.overload?_eq, Binding.merge?] at hb
    obtain ⟨last, hlast, rfl⟩ := Option.map_eq_some_iff.1 hb
    obtain ⟨b', hb', hp'⟩ := List.exists_of_findSome?_eq_some hp
    obtain ⟨k, -, hkeyedLast⟩ := List.mem_filterMap.1 (List.mem_of_getLast? hlast)
    obtain ⟨k', hk', hfind⟩ := List.mem_filterMap.1 hb'
    obtain ⟨s, hs, haccessor⟩ := (hown k' hk').overload n σ b' p hfind hp'
    have hsignature : b'.signature = last.signature :=
      (hkeyed k' n σ b' hfind).trans (hkeyed k n σ last hkeyedLast).symm
    rw [hsignature] at haccessor
    exact h.hasAccessorFor hk' hs haccessor

end MemberTable

end ScriptSurface
