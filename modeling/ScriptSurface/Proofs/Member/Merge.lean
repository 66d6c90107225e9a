import Mathlib.Data.List.Induction
import ScriptSurface.Member.Slot
import ScriptSurface.Proofs.Assoc

/-!
# What a merge makes of the tables along a walk

`MemberTable.IsMerge walk t` says, without going through the walk step by step, which table `t` is
the merge of the own tables along a walk.  A name is in it when one of them has it, and the slot
behind it `Slot.IsMerge` of their slots behind that name:

* the field, the getter and the setter are each the first one,
* the overloads come in the order in which their signatures first appear,
* the overload of a signature is `Binding.merge?` of those along the walk: the last one, but hidden
  if one of them is, and standing for the first property that one of them stands for.

`MemberTable.isMerge_merge` says that `MemberTable.merge` answers that table.  Each step of the
merge adds one table at the end of the walk, so the invariant is `IsMerge` of the walk so far
(`Slot.IsMerge.inherit`, `MemberTable.IsMerge.inherit`).  The description leaves no choice
(`Slot.IsMerge.unique`), and it looks up names in the own tables without regard to the order of
their entries.
-/

namespace ScriptSurface

/-! ### The description -/

/-- What comes of the overloads of one signature along a walk. -/
def Binding.merge? (bs : List Binding) : Option Binding :=
  bs.getLast?.map fun last =>
    { last with hidden := bs.any Binding.hidden, property := bs.findSome? Binding.property }

/-- A slot is what comes of the slots of one name along a walk. -/
structure Slot.IsMerge (own : List Slot) (s : Slot) : Prop where
  /-- The first field counts. -/
  field : s.field = own.findSome? Slot.field
  /-- The first getter counts. -/
  getter : s.getter = own.findSome? Slot.getter
  /-- The first setter counts. -/
  setter : s.setter = own.findSome? Slot.setter
  /-- The signatures are those along the walk, in the order of their first appearance. -/
  signatures : s.overloads.keys = (own.flatMap fun o => o.overloads.keys).eraseDups
  /-- The overload of a signature comes of those along the walk. -/
  overload : ∀ σ, s.overloads.find? σ = Binding.merge? (own.filterMap fun o => o.overloads.find? σ)

/-- A table is what comes of the own tables along a walk. -/
structure MemberTable.IsMerge (walk : List MemberTable) (t : MemberTable) : Prop where
  /-- The names are those along the walk. -/
  names : ∀ n, n ∈ t.keys ↔ ∃ own ∈ walk, n ∈ own.keys
  /-- The slot behind a name comes of those along the walk. -/
  slots : ∀ n s, t.find? n = some s → s.IsMerge (walk.filterMap fun own => own.find? n)

/-! ### Overloads -/

@[simp] theorem Binding.merge?_singleton (b : Binding) : Binding.merge? [b] = some b := by
  cases b with
  | mk e σ hidden property => cases property <;> simp [merge?]

theorem Binding.merge?_append_singleton (bs : List Binding) (b : Binding) :
    Binding.merge? (bs ++ [b]) = some (Slot.inheritBinding (Binding.merge? bs) b) := by
  have hproperty : [b].findSome? Binding.property = b.property := by
    cases hb : b.property <;> simp [hb]
  cases hbs : bs.getLast? with
  | none =>
    rw [List.getLast?_eq_none_iff.1 hbs, List.nil_append, merge?_singleton]
    rfl
  | some a => simp [merge?, Slot.inheritBinding, hbs, List.findSome?_append, hproperty]

/-! ### Slots -/

namespace Slot

theorem find?_inheritOverloads (mine inherited : Overloads) (σ : Signature) :
    (inheritOverloads mine inherited).find? σ
      = ((inherited.find? σ).map fun b => inheritBinding (mine.find? σ) b).or (mine.find? σ) :=
  Assoc.find?_foldl_alter (fun b there => inheritBinding there b) inherited.nodup_keys mine σ

theorem keys_inheritOverloads (mine inherited : Overloads) :
    (inheritOverloads mine inherited).keys = (mine.keys ++ inherited.keys).eraseDups :=
  Assoc.keys_foldl_alter (fun b there => inheritBinding there b) inherited.toList mine

theorem isMerge_singleton (s : Slot) : s.IsMerge [s] where
  field := by cases hs : s.field <;> simp [hs]
  getter := by cases hs : s.getter <;> simp [hs]
  setter := by cases hs : s.setter <;> simp [hs]
  signatures := by simpa using (eraseDups_of_nodup s.overloads.keys_nodup).symm
  overload σ := by
    cases hs : s.overloads.find? σ with
    | none => simp [hs, Binding.merge?]
    | some b => simp [hs]

/-- Inheriting from one more slot is the step from a walk to the walk that goes on to it. -/
theorem IsMerge.inherit {own : List Slot} {s : Slot} (h : s.IsMerge own) (inherited : Slot) :
    (s.inherit inherited).IsMerge (own ++ [inherited]) where
  field := by
    rw [List.findSome?_append, ← h.field]
    cases hs : s.field <;> cases hi : inherited.field <;> simp [Slot.inherit, hs, hi]
  getter := by
    rw [List.findSome?_append, ← h.getter]
    cases hs : s.getter <;> cases hi : inherited.getter <;> simp [Slot.inherit, hs, hi]
  setter := by
    rw [List.findSome?_append, ← h.setter]
    cases hs : s.setter <;> cases hi : inherited.setter <;> simp [Slot.inherit, hs, hi]
  signatures := by
    rw [Slot.inherit, keys_inheritOverloads, h.signatures, eraseDups_eraseDups_append,
      List.flatMap_append, List.flatMap_singleton]
  overload σ := by
    rw [Slot.inherit, find?_inheritOverloads, h.overload, List.filterMap_append]
    cases hi : inherited.overloads.find? σ with
    | none => simp [hi]
    | some b => simp [hi, Binding.merge?_append_singleton]

/-- The description leaves no choice. -/
theorem IsMerge.unique {own : List Slot} {s s' : Slot} (h : s.IsMerge own) (h' : s'.IsMerge own) :
    s = s' := by
  have hoverloads : s.overloads = s'.overloads :=
    Assoc.ext_find? (h.signatures.trans h'.signatures.symm) fun σ =>
      (h.overload σ).trans (h'.overload σ).symm
  have hfield := h.field.trans h'.field.symm
  have hgetter := h.getter.trans h'.getter.symm
  have hsetter := h.setter.trans h'.setter.symm
  cases s; cases s'
  simp_all

end Slot

/-! ### Tables -/

namespace MemberTable

theorem find?_inherit (t inherited : MemberTable) (n : String) :
    (t.inherit inherited).find? n
      = ((inherited.find? n).map fun s => ((t.find? n).map fun m => Slot.inherit m s).getD s).or
          (t.find? n) :=
  Assoc.find?_foldl_alter (fun (s : Slot) mine => (mine.map fun m => Slot.inherit m s).getD s)
    inherited.nodup_keys t n

theorem keys_inherit (t inherited : MemberTable) :
    (t.inherit inherited).keys = (t.keys ++ inherited.keys).eraseDups :=
  Assoc.keys_foldl_alter (fun (s : Slot) mine => (mine.map fun m => Slot.inherit m s).getD s)
    inherited.toList t

theorem isMerge_nil : IsMerge [] ∅ where
  names n := by simp
  slots n s h := by simp at h

/-- A name that is not in the table is in none of the own tables. -/
theorem IsMerge.filterMap_eq_nil {walk : List MemberTable} {t : MemberTable} (h : t.IsMerge walk)
    {n : String} (hn : t.find? n = none) : (walk.filterMap fun own => own.find? n) = [] := by
  rw [List.filterMap_eq_nil_iff]
  intro own hown
  rw [← Option.not_isSome_iff_eq_none, Assoc.isSome_find?_iff] at hn ⊢
  exact fun hmem => hn ((h.names n).2 ⟨own, hown, hmem⟩)

/-- Inheriting from one more table is the step from a walk to the walk that goes on to it. -/
theorem IsMerge.inherit {walk : List MemberTable} {t : MemberTable} (h : t.IsMerge walk)
    (inherited : MemberTable) : (t.inherit inherited).IsMerge (walk ++ [inherited]) where
  names n := by
    rw [keys_inherit, List.mem_eraseDups, List.mem_append, h.names]
    simp [or_and_right, exists_or]
  slots n s hs := by
    rw [find?_inherit] at hs
    rw [List.filterMap_append]
    cases hi : inherited.find? n with
    | none =>
      rw [hi] at hs
      simpa [hi] using h.slots n s hs
    | some i =>
      rw [hi] at hs
      cases ht : t.find? n with
      | none =>
        obtain rfl : i = s := by simpa [ht] using hs
        simpa [h.filterMap_eq_nil ht, hi] using i.isMerge_singleton
      | some m =>
        obtain rfl : m.inherit i = s := by simpa [ht] using hs
        simpa [hi] using (h.slots n m ht).inherit i

theorem isMerge_merge (walk : List MemberTable) : (merge walk).IsMerge walk := by
  induction walk using List.reverseRecOn with
  | nil => exact isMerge_nil
  | append_singleton walk own ih =>
    rw [merge, List.foldl_append]
    exact ih.inherit own

/-- Whether a name is in a merge at all can be told from the slots behind it. -/
theorem IsMerge.isSome_find?_iff {walk : List MemberTable} {t : MemberTable} (h : t.IsMerge walk)
    {n : String} : (t.find? n).isSome ↔ (walk.filterMap fun own => own.find? n) ≠ [] := by
  rw [Assoc.isSome_find?_iff, h.names, ne_eq, List.filterMap_eq_nil_iff]
  simp [← Assoc.isSome_find?_iff, Option.isSome_iff_ne_none]

/-- Merges along walks with the same slots behind a name have the same slot behind it. -/
theorem IsMerge.find?_congr {walk walk' : List MemberTable} {t t' : MemberTable}
    (h : t.IsMerge walk) (h' : t'.IsMerge walk') {n : String}
    (hwalk : (walk.filterMap fun own => own.find? n) = walk'.filterMap fun own => own.find? n) :
    t.find? n = t'.find? n := by
  cases ht : t.find? n with
  | none =>
    have hnone : ¬(t'.find? n).isSome := by
      rw [h'.isSome_find?_iff, ← hwalk, ← h.isSome_find?_iff, ht]
      simp
    exact (Option.not_isSome_iff_eq_none.1 hnone).symm
  | some s =>
    obtain ⟨s', ht'⟩ : ∃ s', t'.find? n = some s' := by
      rw [← Option.isSome_iff_exists, h'.isSome_find?_iff, ← hwalk, ← h.isSome_find?_iff, ht]
      rfl
    rw [ht', (h.slots n s ht).unique (hwalk ▸ h'.slots n s' ht')]

/-- A merge does not depend on the order of the entries in the own tables. -/
theorem IsMerge.find?_eq_of_perm {walk walk' : List MemberTable} {t t' : MemberTable}
    (h : t.IsMerge walk) (h' : t'.IsMerge walk')
    (hperm : List.Forall₂ (fun own own' => own.toList.Perm own'.toList) walk walk') (n : String) :
    t.find? n = t'.find? n := by
  refine h.find?_congr h' ?_
  clear h h'
  induction hperm with
  | nil => rfl
  | cons hown _ ih => rw [List.filterMap_cons, List.filterMap_cons, Assoc.find?_eq_of_perm hown, ih]

end MemberTable

end ScriptSurface
