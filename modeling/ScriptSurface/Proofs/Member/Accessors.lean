import ScriptSurface.Proofs.Member.Discovery

/-!
# Accessors and the overloads of their methods

A getter or setter in a merged table comes from one of the types on the walk, and in its own table
it was put there together with the overload of the same method
(`Environment.hasAccessor_ownMembers`, `Environment.isSome_overload?_ownMembers`).  The two go
separate ways from then on.  The accessor is the first one on the walk and is never taken back.  The
overload may be replaced, by the same type or further along the walk, and is hidden once an overload
of its name and signature is.

So the method of an accessor always has an overload in the table, and whether that overload is
hidden can be told from the own overloads on the walk, whatever the accessor says
(`Environment.overload?_of_hasAccessor`).
-/

namespace ScriptSurface

/-! ### Accessors of a table -/

namespace MemberTable

/-- Whether a callable is the getter or the setter of the property behind a name. -/
def HasAccessor (t : MemberTable) (n : String) (b : Binding) : Prop :=
  ∃ slot, t.find? n = some slot ∧ (slot.getter = some b ∨ slot.setter = some b)

variable {t : MemberTable} {n name : String} {b : Binding} {f : Slot → Slot}

theorem not_hasAccessor_empty : ¬(∅ : MemberTable).HasAccessor n b := by
  rintro ⟨slot, hslot, -⟩
  cases hslot

/-- An accessor of a changed table comes from the change or was there before. -/
theorem HasAccessor.of_change {P : Prop} (h : (t.change name f).HasAccessor n b)
    (hf : ∀ s : Slot, (f s).getter = some b ∨ (f s).setter = some b →
      P ∨ s.getter = some b ∨ s.setter = some b) : P ∨ t.HasAccessor n b := by
  obtain ⟨slot, hslot, hb⟩ := h
  rw [find?_change] at hslot
  split_ifs at hslot with hname
  · obtain rfl := Option.some.inj hslot
    rcases hf _ hb with hP | hb
    · exact .inl hP
    · right
      cases hn : t.find? n with
      | none =>
        rw [hn] at hb
        rcases hb with hb | hb <;> cases hb
      | some s =>
        rw [hn] at hb
        exact ⟨s, hn, hb⟩
  · exact .inr ⟨slot, hslot, hb⟩

/-- A change that drops no overload leaves the signatures of a table as they are. -/
theorem isSome_overload?_change {m : String} {σ : Signature}
    (hf : ∀ s : Slot, (s.overloads.find? σ).isSome → ((f s).overloads.find? σ).isSome)
    (h : (t.overload? m σ).isSome) : ((t.change name f).overload? m σ).isSome := by
  unfold overload? at h ⊢
  rw [find?_change]
  split_ifs
  · cases hm : t.find? m with
    | none =>
      rw [hm] at h
      cases h
    | some s =>
      rw [hm] at h
      exact hf s h
  · exact h

section Walk

variable {κ : Type} {own : κ → MemberTable} {walk : List κ}

/-- An accessor of a merge is one of the own accessors on the walk. -/
theorem IsMerge.exists_hasAccessor (h : t.IsMerge (walk.map own)) (hb : t.HasAccessor n b) :
    ∃ k ∈ walk, (own k).HasAccessor n b := by
  obtain ⟨slot, hslot, hb⟩ := hb
  have hmerge := h.slots n slot hslot
  have hown : ∀ {s : Slot}, s ∈ (walk.map own).filterMap (fun o => o.find? n) →
      ∃ k ∈ walk, (own k).find? n = some s := by
    intro s hs
    simpa [List.mem_filterMap] using hs
  rcases hb with hb | hb
  · rw [hmerge.getter] at hb
    obtain ⟨s, hs, hgetter⟩ := List.exists_of_findSome?_eq_some hb
    obtain ⟨k, hk, hfind⟩ := hown hs
    exact ⟨k, hk, s, hfind, .inl hgetter⟩
  · rw [hmerge.setter] at hb
    obtain ⟨s, hs, hsetter⟩ := List.exists_of_findSome?_eq_some hb
    obtain ⟨k, hk, hfind⟩ := hown hs
    exact ⟨k, hk, s, hfind, .inr hsetter⟩

/-- An own overload on the walk makes for one in the merge, which is hidden if one of the own ones
is. -/
theorem IsMerge.exists_overload? (h : t.IsMerge (walk.map own)) {k : κ} (hk : k ∈ walk)
    {σ : Signature} (hown : ((own k).overload? n σ).isSome) :
    ∃ o, t.overload? n σ = some o ∧
      (o.hidden = true ↔
        ∃ k' ∈ walk, ∃ o', (own k').overload? n σ = some o' ∧ o'.hidden = true) := by
  obtain ⟨a, ha⟩ := Option.isSome_iff_exists.1 hown
  have hmem : a ∈ walk.filterMap fun k => (own k).overload? n σ :=
    List.mem_filterMap.2 ⟨k, hk, ha⟩
  obtain ⟨last, hlast⟩ := Option.ne_none_iff_exists'.1 fun hnone =>
    List.ne_nil_of_mem hmem (List.getLast?_eq_none_iff.1 hnone)
  have hmerge := h.overload?_eq n σ
  rw [Binding.merge?, hlast] at hmerge
  refine ⟨_, hmerge, ?_⟩
  rw [List.any_eq_true]
  constructor
  · rintro ⟨o', ho', hhidden⟩
    obtain ⟨k', hk', hfind⟩ := List.mem_filterMap.1 ho'
    exact ⟨k', hk', o', hfind, hhidden⟩
  · rintro ⟨k', hk', o', hfind, hhidden⟩
    exact ⟨o', List.mem_filterMap.2 ⟨k', hk', hfind⟩, hhidden⟩

end Walk

end MemberTable

/-! ### Own accessors and own overloads -/

namespace Environment

variable (env : Environment) (c : ClassId)

/-- Whether a method becomes a member of the class it is declared in. -/
def Exposes (m : Executable) : Prop := env.isWithheld c = false ∧ m ∈ env.eligibleMethods c

/-- Adds a method of a class to its own members as an accessor if it is one. -/
def addAccessor (t : MemberTable) (m : Executable) : MemberTable :=
  match env.accessor? c m with
  | some (.getter, property) => t.change property (Slot.setGetter (env.bindMethod c m))
  | some (.setter, property) => t.change property (Slot.setSetter (env.bindMethod c m))
  | none => t

theorem addMethod_eq (t : MemberTable) (m : Executable) :
    env.addMethod c t m
      = (env.addAccessor c t m).change (env.methodName c m)
          (Slot.addOverload (env.bindMethod c m)) := rfl

/-- Only methods that are not hidden are accessors. -/
theorem hidden_of_accessor? {m : Executable} {accessor : Accessor × String}
    (h : env.accessor? c m = some accessor) : m.hidden = false := by
  unfold accessor? at h
  split_ifs at h with hm
  rw [Bool.and_eq_true, Bool.not_eq_true'] at hm
  exact hm.2

/-- A method adds no accessor but itself, and that only if it is not hidden. -/
theorem hasAccessor_addMethod {t : MemberTable} {m : Executable} {n : String} {b : Binding}
    (h : (env.addMethod c t m).HasAccessor n b) :
    (b = env.bindMethod c m ∧ m.hidden = false) ∨ t.HasAccessor n b := by
  have haccessor : (env.addAccessor c t m).HasAccessor n b := by
    rw [addMethod_eq] at h
    have hkeeps := h.of_change (P := False) fun s hs => .inr hs
    exact hkeeps.resolve_left id
  unfold addAccessor at haccessor
  split at haccessor
  · next property hget =>
    refine haccessor.of_change fun s hs => ?_
    rcases hs with hs | hs
    · exact .inl ⟨(Option.some.inj hs).symm, env.hidden_of_accessor? c hget⟩
    · exact .inr (.inr hs)
  · next property hset =>
    refine haccessor.of_change fun s hs => ?_
    rcases hs with hs | hs
    · exact .inr (.inl hs)
    · exact .inl ⟨(Option.some.inj hs).symm, env.hidden_of_accessor? c hset⟩
  · exact .inr haccessor

/-- Own accessors are methods the class exposes, and none of them is hidden. -/
theorem hasAccessor_ownMembers {n : String} {b : Binding}
    (h : (env.ownMembers c).HasAccessor n b) :
    env.Exposes c b.executable ∧ b = env.bindMethod c b.executable ∧
      b.executable.hidden = false := by
  have hwithheld : env.isWithheld c = false := by
    by_contra hwithheld
    unfold ownMembers at h
    rw [if_pos (by simpa using hwithheld)] at h
    exact MemberTable.not_hasAccessor_empty h
  have hfilled : (env.ownMembers c).HasAccessor n b →
      ∃ m ∈ env.eligibleMethods c, b = env.bindMethod c m ∧ m.hidden = false := by
    refine env.ownMembers_induction (P := fun t => t.HasAccessor n b → _) c ?_ ?_ ?_
    · exact fun h => absurd h MemberTable.not_hasAccessor_empty
    · intro t f _ ih h
      have hkeeps := h.of_change (P := False) fun s hs => .inr hs
      exact ih (hkeeps.resolve_left id)
    · intro t m hm ih h
      rcases env.hasAccessor_addMethod c h with ⟨hb, hhidden⟩ | h
      · exact ⟨m, hm, hb, hhidden⟩
      · exact ih h
  obtain ⟨m, hm, rfl, hhidden⟩ := hfilled h
  exact ⟨⟨hwithheld, hm⟩, rfl, hhidden⟩

/-- A signature behind a name is not lost when a method is added. -/
theorem isSome_overload?_addMethod {t : MemberTable} {n : String} {σ : Signature}
    (h : (t.overload? n σ).isSome) (m : Executable) :
    ((env.addMethod c t m).overload? n σ).isSome := by
  have haccessor : ((env.addAccessor c t m).overload? n σ).isSome := by
    unfold addAccessor
    split
    · exact MemberTable.isSome_overload?_change (fun s hs => hs) h
    · exact MemberTable.isSome_overload?_change (fun s hs => hs) h
    · exact h
  rw [addMethod_eq]
  refine MemberTable.isSome_overload?_change (fun s hs => ?_) haccessor
  rw [Slot.addOverload, Assoc.find?_put]
  split_ifs
  · rfl
  · exact hs

theorem isSome_overload?_addMethod_self (t : MemberTable) (m : Executable) :
    ((env.addMethod c t m).overload? (env.methodName c m) ⟨m.params⟩).isSome := by
  have hsignature : (env.bindMethod c m).signature = ⟨m.params⟩ := rfl
  rw [addMethod_eq, MemberTable.overload?, MemberTable.find?_change, if_pos rfl, Option.bind_some,
    Slot.addOverload, hsignature, Assoc.find?_put, if_pos rfl]
  rfl

/-- Every method a class exposes has an own overload of its name and signature. -/
theorem isSome_overload?_ownMembers {m : Executable} (h : env.Exposes c m) :
    ((env.ownMembers c).overload? (env.methodName c m) ⟨m.params⟩).isSome := by
  obtain ⟨hwithheld, hm⟩ := h
  -- along the methods, the overload is there from `m` on
  have hfoldl : ∀ (methods : List Executable) (t : MemberTable),
      (m ∈ methods ∨ (t.overload? (env.methodName c m) ⟨m.params⟩).isSome) →
      ((methods.foldl (env.addMethod c) t).overload? (env.methodName c m) ⟨m.params⟩).isSome := by
    intro methods
    induction methods with
    | nil => exact fun t h => h.resolve_left List.not_mem_nil
    | cons m' methods ih =>
      intro t h
      refine ih _ ?_
      rcases h with h | h
      · rcases List.mem_cons.1 h with rfl | h
        · exact .inr (env.isSome_overload?_addMethod_self c t m)
        · exact .inl h
      · exact .inr (env.isSome_overload?_addMethod c h m')
  unfold ownMembers
  rw [if_neg (by simp [hwithheld])]
  exact hfoldl _ _ (.inl hm)

/-! ### Accessors of a merge -/

/-- The method of an accessor has an overload in the merge, which is hidden if an own overload of
its name and signature is hidden on the walk. -/
theorem overload?_of_hasAccessor {κ : Type} {cls : κ → ClassId} {walk : List κ} {t : MemberTable}
    (h : t.IsMerge (walk.map fun k => env.ownMembers (cls k))) {n : String} {b : Binding}
    (hb : t.HasAccessor n b) :
    b.executable.hidden = false ∧
      (∃ k ∈ walk, env.Exposes (cls k) b.executable) ∧
      ∀ k ∈ walk, env.Exposes (cls k) b.executable →
        ∃ o, t.overload? (env.methodName (cls k) b.executable) b.signature = some o ∧
          (o.hidden = true ↔ ∃ k' ∈ walk, ∃ o',
            (env.ownMembers (cls k')).overload? (env.methodName (cls k) b.executable) b.signature
              = some o' ∧ o'.hidden = true) := by
  obtain ⟨k, hk, hown⟩ := h.exists_hasAccessor hb
  obtain ⟨hexposes, hbind, hhidden⟩ := env.hasAccessor_ownMembers (cls k) hown
  refine ⟨hhidden, ⟨k, hk, hexposes⟩, fun k' hk' hexposes' => ?_⟩
  have hsignature : b.signature = ⟨b.executable.params⟩ := congrArg Binding.signature hbind
  rw [hsignature]
  exact h.exists_overload? hk' (env.isSome_overload?_ownMembers (cls k') hexposes')

end Environment

end ScriptSurface
