import ScriptSurface.Proofs.Levels
import ScriptSurface.Proofs.Member.OwnMembers

/-!
# What is inherited

The members of a type are merged from own members along one walk, and the members of its supertypes
play no part in that.  `MemberTable.Inherits` relates them all the same: a type has the names and
the signatures of its own members and of the members of its supertypes, a signature is hidden if it
is in one of these, its callable is that of a supertype, and a field or an accessor is its own if it
has one and else that of a supertype.

All of this is told slot by slot (`MemberTable.IsMerge.slotAt`).  It holds because the walk of a
type, past the type itself, interleaves the walks of its supertypes without changing their order:
`Slot.IsMerge.inherits`, `MemberTable.IsMerge.inherits`.
-/

namespace ScriptSurface

variable {β κ : Type}

/-! ### Slots along a walk -/

/-- What comes of the slots behind a name along a walk, where types without the name count as types
with nothing behind it. -/
theorem MemberTable.IsMerge.slotAt {own : κ → MemberTable} {walk : List κ} {t : MemberTable}
    (h : t.IsMerge (walk.map own)) (n : String) :
    (t.slotAt n).IsMerge (walk.map fun k => (own k).slotAt n) := by
  have hslot : (t.slotAt n).IsMerge ((walk.map own).filterMap fun o => o.find? n) := by
    cases ht : t.find? n with
    | none =>
      rw [h.filterMap_eq_nil ht, MemberTable.slotAt, ht]
      exact ⟨rfl, rfl, rfl, rfl, fun _ => rfl⟩
    | some s =>
      rw [slotAt_of_find? ht]
      exact h.slots n s ht
  -- nothing is read off an empty slot
  have hfirst : ∀ {γ : Type} (f : Slot → Option γ), f Slot.empty = none →
      ((walk.map own).filterMap fun o => o.find? n).findSome? f
        = (walk.map fun k => (own k).slotAt n).findSome? f := by
    intro γ f hf
    rw [List.filterMap_map, findSome?_filterMap, List.findSome?_map]
    congr 1
    funext k
    show ((own k).find? n).bind f = f ((own k).slotAt n)
    unfold MemberTable.slotAt
    cases (own k).find? n with
    | none => exact hf.symm
    | some s => rfl
  refine ⟨?_, ?_, ?_, ?_, fun σ => ?_⟩
  · rw [hslot.field, hfirst Slot.field rfl]
  · rw [hslot.getter, hfirst Slot.getter rfl]
  · rw [hslot.setter, hfirst Slot.setter rfl]
  · rw [hslot.signatures, flatMap_filterMap_keys, List.flatMap_map]
    congr 1
    refine List.flatMap_congr fun k _ => ?_
    unfold MemberTable.slotAt
    cases (own k).find? n <;> rfl
  · rw [hslot.overload, List.filterMap_map, List.filterMap_filterMap, List.filterMap_map]
    congr 1
    refine List.filterMap_congr fun k _ => ?_
    show ((own k).find? n).bind _ = ((own k).slotAt n).overloads.find? σ
    unfold MemberTable.slotAt
    cases (own k).find? n <;> rfl

namespace Slot

/-- Whether a signature is kept from scripts. -/
def hides (s : Slot) (σ : Signature) : Bool := (s.overloads.find? σ).any Binding.hidden

/-- What a call of exactly a signature runs, hidden or not. -/
def callable? (s : Slot) (σ : Signature) : Option Executable :=
  (s.overloads.find? σ).map Binding.executable

namespace IsMerge

variable {own : List Slot} {s : Slot}

theorem mem_keys_iff (h : s.IsMerge own) (σ : Signature) :
    σ ∈ s.overloads.keys ↔ ∃ o ∈ own, σ ∈ o.overloads.keys := by
  rw [h.signatures, List.mem_eraseDups, List.mem_flatMap]

theorem hides_iff (h : s.IsMerge own) (σ : Signature) :
    s.hides σ = true ↔ ∃ o ∈ own, o.hides σ = true := by
  have hany : ∀ bs : List Binding, (Binding.merge? bs).any Binding.hidden
      = bs.any Binding.hidden := by
    intro bs
    unfold Binding.merge?
    cases hlast : bs.getLast? with
    | none =>
      rw [List.getLast?_eq_none_iff.1 hlast]
      rfl
    | some b => rfl
  rw [hides, h.overload, hany, List.any_filterMap, List.any_eq_true]
  refine exists_congr fun o => and_congr_right fun _ => ?_
  rw [hides]
  cases o.overloads.find? σ <;> rfl

theorem callable?_eq (h : s.IsMerge own) (σ : Signature) :
    s.callable? σ = own.reverse.findSome? fun o => o.callable? σ := by
  rw [callable?, h.overload, Binding.map_executable_merge?, List.getLast?_filterMap,
    List.map_findSome?]
  rfl

end IsMerge

end Slot

/-! ### Inheriting -/

/-- What is found is one's own, if there is anything, and else what some supertype has. -/
structure Takes (mine : Option β) (theirs : List (Option β)) (found : Option β) : Prop where
  /-- One's own comes first. -/
  own : ∀ b, mine = some b → found = some b
  /-- What is not one's own is inherited. -/
  inherited : mine = none → ∀ b, found = some b → some b ∈ theirs
  /-- What a supertype has only gives way to something else. -/
  absent : found = none → ∀ o ∈ theirs, o = none

/-- What is behind a name of a type, from what is behind the name among its own members and among
the members of its supertypes. -/
structure Slot.Inherits (own : Slot) (supers : List Slot) (s : Slot) : Prop where
  /-- The field is one's own or that of a supertype. -/
  field : Takes own.field (supers.map Slot.field) s.field
  /-- The getter is one's own or that of a supertype. -/
  getter : Takes own.getter (supers.map Slot.getter) s.getter
  /-- The setter is one's own or that of a supertype. -/
  setter : Takes own.setter (supers.map Slot.setter) s.setter
  /-- The signatures are one's own and those of the supertypes. -/
  signatures : ∀ σ, σ ∈ s.overloads.keys ↔
    σ ∈ own.overloads.keys ∨ ∃ p ∈ supers, σ ∈ p.overloads.keys
  /-- A signature is hidden if one hides it oneself or a supertype does. -/
  hidden : ∀ σ, s.hides σ = true ↔ own.hides σ = true ∨ ∃ p ∈ supers, p.hides σ = true
  /-- The callable is that of a supertype, and one's own only if no supertype has the signature. -/
  callable : ∀ σ e, s.callable? σ = some e →
    (∃ p ∈ supers, p.callable? σ = some e) ∨
      (∀ p ∈ supers, p.callable? σ = none) ∧ own.callable? σ = some e

/-- The members of a type, from its own members and the members of its supertypes. -/
structure MemberTable.Inherits (own : MemberTable) (supers : List MemberTable) (t : MemberTable) :
    Prop where
  /-- The names are one's own and those of the supertypes. -/
  names : ∀ n, n ∈ t.keys ↔ n ∈ own.keys ∨ ∃ p ∈ supers, n ∈ p.keys
  /-- What is behind each name is inherited. -/
  slots : ∀ n, (own.slotAt n).Inherits (supers.map fun p => p.slotAt n) (t.slotAt n)

section Walk

variable {next : κ → List κ} {start : κ} {n : ℕ}

/-- What comes first on a walk is at its start, or comes first on the walk from some successor of
the start. -/
theorem takes_levelsFrom (supply : κ → Option β) :
    Takes (supply start)
      ((next start).map fun k => (levelsFrom next n [k]).findSome? supply)
      ((start :: levelsFrom next n (next start)).findSome? supply) where
  own b hb := by rw [List.findSome?_cons, hb]
  inherited hmine b hb := by
    rw [List.findSome?_cons, hmine] at hb
    obtain ⟨k, hk, hfirst⟩ := exists_first_levelsFrom hb
    rw [← hfirst]
    exact List.mem_map_of_mem hk
  absent hnone o ho := by
    obtain ⟨k, hk, rfl⟩ := List.mem_map.1 ho
    rw [List.findSome?_eq_none_iff] at hnone ⊢
    exact fun x hx => hnone x (List.mem_cons_of_mem _ (mem_levelsFrom_iff.2 ⟨k, hk, hx⟩))

/-- What a walk comes by is its start, or is on the walk from some successor of the start. -/
theorem exists_mem_walk_iff {P : κ → Prop} :
    (∃ x ∈ start :: levelsFrom next n (next start), P x) ↔
      P start ∨ ∃ k ∈ next start, ∃ x ∈ levelsFrom next n [k], P x := by
  simp only [List.mem_cons, exists_eq_or_imp]
  refine or_congr_right ⟨?_, ?_⟩
  · rintro ⟨x, hx, hP⟩
    obtain ⟨k, hk, hx⟩ := mem_levelsFrom_iff.1 hx
    exact ⟨k, hk, x, hx, hP⟩
  · rintro ⟨k, hk, x, hx, hP⟩
    exact ⟨x, mem_levelsFrom_iff.2 ⟨k, hk, hx⟩, hP⟩

variable {slot merged : κ → Slot} {s : Slot}

namespace Slot.IsMerge

/-- What goes by the first slot on a walk. -/
theorem takes (h : s.IsMerge ((start :: levelsFrom next n (next start)).map slot))
    (hmerged : ∀ k ∈ next start, (merged k).IsMerge ((levelsFrom next n [k]).map slot))
    {f : Slot → Option β} (hf : ∀ {own s}, IsMerge own s → f s = own.findSome? f) :
    Takes (f (slot start)) (((next start).map merged).map f) (f s) := by
  have hsupers : ((next start).map merged).map f
      = (next start).map fun k => (levelsFrom next n [k]).findSome? fun k => f (slot k) := by
    rw [List.map_map]
    refine List.map_congr_left fun k hk => ?_
    rw [Function.comp, hf (hmerged k hk), List.findSome?_map]
    rfl
  rw [hf h, List.findSome?_map, hsupers]
  exact takes_levelsFrom fun k => f (slot k)

/-- What goes by any slot on a walk. -/
theorem iff_or_exists (h : s.IsMerge ((start :: levelsFrom next n (next start)).map slot))
    (hmerged : ∀ k ∈ next start, (merged k).IsMerge ((levelsFrom next n [k]).map slot))
    {P : Slot → Prop} (hP : ∀ {own s}, IsMerge own s → (P s ↔ ∃ o ∈ own, P o)) :
    P s ↔ P (slot start) ∨ ∃ p ∈ (next start).map merged, P p := by
  rw [hP h]
  simp only [List.mem_map, exists_exists_and_eq_and]
  rw [exists_mem_walk_iff]
  refine or_congr_right (exists_congr fun k => and_congr_right fun hk => ?_)
  rw [hP (hmerged k hk)]
  simp only [List.mem_map, exists_exists_and_eq_and]

/-- What goes by the last slot on a walk. -/
theorem callable_cases (h : s.IsMerge ((start :: levelsFrom next n (next start)).map slot))
    (hmerged : ∀ k ∈ next start, (merged k).IsMerge ((levelsFrom next n [k]).map slot))
    {σ : Signature} {e : Executable} (he : s.callable? σ = some e) :
    (∃ p ∈ (next start).map merged, p.callable? σ = some e) ∨
      (∀ p ∈ (next start).map merged, p.callable? σ = none) ∧
        (slot start).callable? σ = some e := by
  have hlast : ∀ walk : List κ, (walk.map slot).reverse.findSome? (fun o => o.callable? σ)
      = walk.reverse.findSome? fun k => (slot k).callable? σ := by
    intro walk
    rw [← List.map_reverse, List.findSome?_map]
    rfl
  rw [h.callable?_eq, hlast, List.reverse_cons, List.findSome?_append,
    List.findSome?_singleton] at he
  cases hrest : (levelsFrom next n (next start)).reverse.findSome?
      fun k => (slot k).callable? σ with
  | some e' =>
    obtain rfl : e' = e := by simpa [hrest] using he
    obtain ⟨k, hk, hlater⟩ := exists_last_levelsFrom hrest
    refine .inl ⟨merged k, List.mem_map_of_mem hk, ?_⟩
    rw [(hmerged k hk).callable?_eq, hlast, hlater]
  | none =>
    refine .inr ⟨fun p hp => ?_, by simpa [hrest] using he⟩
    obtain ⟨k, hk, rfl⟩ := List.mem_map.1 hp
    rw [(hmerged k hk).callable?_eq, hlast]
    rw [List.findSome?_eq_none_iff] at hrest ⊢
    exact fun x hx => hrest x (List.mem_reverse.2
      (mem_levelsFrom_iff.2 ⟨k, hk, List.mem_reverse.1 hx⟩))

/-- A slot that comes of a walk inherits from those that come of the walks from the successors of
its start. -/
theorem inherits (h : s.IsMerge ((start :: levelsFrom next n (next start)).map slot))
    (hmerged : ∀ k ∈ next start, (merged k).IsMerge ((levelsFrom next n [k]).map slot)) :
    (slot start).Inherits ((next start).map merged) s where
  field := h.takes hmerged IsMerge.field
  getter := h.takes hmerged IsMerge.getter
  setter := h.takes hmerged IsMerge.setter
  signatures σ := h.iff_or_exists hmerged fun h => h.mem_keys_iff σ
  hidden σ := h.iff_or_exists hmerged fun h => h.hides_iff σ
  callable _ _ he := h.callable_cases hmerged he

end Slot.IsMerge

variable {own tables : κ → MemberTable} {t : MemberTable}

/-- The members of a type are inherited from its supertypes, and so is what is behind each of their
names. -/
theorem MemberTable.IsMerge.inherits
    (h : t.IsMerge ((start :: levelsFrom next n (next start)).map own))
    (htables : ∀ k ∈ next start, (tables k).IsMerge ((levelsFrom next n [k]).map own)) :
    (own start).Inherits ((next start).map tables) t where
  names m := by
    rw [h.names]
    simp only [List.mem_map, exists_exists_and_eq_and]
    rw [exists_mem_walk_iff]
    refine or_congr_right (exists_congr fun k => and_congr_right fun hk => ?_)
    rw [(htables k hk).names]
    simp only [List.mem_map, exists_exists_and_eq_and]
  slots m := by
    have hmerged : ∀ k ∈ next start,
        ((tables k).slotAt m).IsMerge ((levelsFrom next n [k]).map fun k => (own k).slotAt m) :=
      fun k hk => (htables k hk).slotAt m
    rw [List.map_map]
    exact (h.slotAt m).inherits hmerged

end Walk

end ScriptSurface
