import ScriptSurface.Proofs.Registry.Arrays

/-!
# Entries, one by one

Whatever happens to a registry, its entries come in one at a time, each at the end and under a new
id (`Registry.Enters`): an array class, under the name that its component has at that time, or a
class whose draft is committed.  A commit may first bring in array classes.

`Registration.ReachedBy` counts the commits on the way to a registration.  What holds of a new
registry, and of the registry with one more entry if it held before, holds of every registry reached
before ids run out: `Registration.ReachedBy.entries_induction`.
-/

namespace ScriptSurface

namespace Registry

variable {r r' : Registry} {c : ClassId} {e : ClassEntry}

/-! ### Names -/

/-- The name of a class that is not registered. -/
def placeholder (c : ClassId) : String := "<unregistered #" ++ c.digits ++ ">"

theorem name_of_entryOf? (h : r.entryOf? c = some e) : r.name c = e.name := by
  unfold name
  rw [h]

theorem name_of_entryOf?_eq_none (h : r.entryOf? c = none) : r.name c = placeholder c := by
  unfold name
  rw [h]
  rfl

theorem Grows.name (h : r.Grows r') (hc : (r.entryOf? c).isSome = true) :
    r'.name c = r.name c := by
  obtain ⟨e, he⟩ := Option.isSome_iff_exists.1 hc
  rw [name_of_entryOf? he, name_of_entryOf? (h.entryOf? he)]

/-! ### Induction on array classes -/

/-- What survives each new array class survives asking for any number of them. -/
theorem AddsArrays.entries_induction {P : Registry → Prop}
    (array : ∀ {r r' a c}, P r → r.Enters r' a (.array c (r.name c)) → P r')
    (h : r.AddsArrays r') (hr : r.Coherent) (hids : r'.HasFreshIds) (hP : P r) : P r' := by
  induction h with
  | refl => exact hP
  | @tail s s' hadds hstep ih =>
    obtain ⟨c, rfl⟩ := hstep
    have hids' : s.HasFreshIds := hids.of_le (reserved_arrayOf_le _ c)
    have hs : s.Coherent := (AddsArrays.adds hadds hr hids').coherent
    rcases hs.arrayOf_cases hids with ⟨a, -, hsame⟩ | ⟨henters, -⟩
    · -- it is there already
      rw [hsame]
      exact ih hids'
    · exact array (ih hids') henters

end Registry

/-! ### Commits -/

namespace Registration

variable {g g' : Registration} {n : ℕ}

/-- One registration comes from another by the commit of a draft. -/
def IsCommit (g g' : Registration) : Prop :=
  ∃ r before after d, g = ⟨r, before ++ d :: after⟩ ∧ g' = ⟨(d.commit r).2, before ++ after⟩

/-- What can come of a new registry by way of so many commits. -/
inductive ReachedBy : ℕ → Registration → Prop where
  /-- There was no commit at the start. -/
  | new : ReachedBy 0 ⟨Registry.initial, []⟩
  /-- A commit counts. -/
  | commit {n : ℕ} {g g' : Registration} (h : ReachedBy n g) (hstep : g.IsCommit g') :
    ReachedBy (n + 1) g'
  /-- Nothing else does. -/
  | other {n : ℕ} {g g' : Registration} (h : ReachedBy n g) (hstep : g.Step g')
    (hnot : ¬g.IsCommit g') : ReachedBy n g'

theorem IsCommit.step (h : g.IsCommit g') : g.Step g' := by
  obtain ⟨r, before, after, d, rfl, rfl⟩ := h
  exact .commit r before after d

theorem ReachedBy.reachable (h : g.ReachedBy n) : g.Reachable := by
  induction h with
  | new => exact .refl
  | commit _ hstep ih => exact ih.tail hstep.step
  | other _ hstep _ ih => exact ih.tail hstep

theorem Reachable.exists_reachedBy (h : g.Reachable) : ∃ n, g.ReachedBy n := by
  induction h with
  | refl => exact ⟨0, .new⟩
  | @tail g g' _ hstep ih =>
    obtain ⟨n, hn⟩ := ih
    by_cases hcommit : g.IsCommit g'
    · exact ⟨n + 1, .commit hn hcommit⟩
    · exact ⟨n, .other hn hstep hcommit⟩

/-- **Induction on the entries of a registry.**  What holds of a new registry and survives every
new array class and every class that is committed, holds of a registry as long as ids have not run
out. -/
theorem ReachedBy.entries_induction {P : ℕ → Registry → Prop} (initial : P 0 Registry.initial)
    (reserve : ∀ {n r}, P n r → P n (Registry.reserve r).2)
    (array : ∀ {n r r' a c}, P n r → r.Enters r' a (.array c (r.name c)) → P n r')
    (cls : ∀ {n r r' c e}, P n r → e.kind.isArray = false → r.Enters r' c e → P (n + 1) r')
    (h : g.ReachedBy n) (hids : g.registry.HasFreshIds) : P n g.registry := by
  induction h with
  | new => exact initial
  | commit h hstep ih =>
    have hids' := hids.of_le hstep.step.reserved_le
    have hfresh := h.reachable.fresh hids'
    have hsound := h.reachable.sound hids'
    obtain ⟨r, before, after, d, rfl, rfl⟩ := hstep
    obtain ⟨r', e, harrays, hids'', -, henters, hclass, -⟩ :=
      hfresh.exists_commit (hsound.drafts d (by simp)).2 hids
    exact cls (harrays.entries_induction array hfresh.registry hids'' (ih hids')) hclass henters
  | other h hstep hnot ih =>
    have hids' := hids.of_le hstep.reserved_le
    have hfresh := h.reachable.fresh hids'
    cases hstep with
    | start r drafts hkind name => exact reserve (ih hids')
    | edit r before after hd => exact ih hids'
    | commit r before after d => exact absurd ⟨r, before, after, d, rfl, rfl⟩ hnot
    | abandon r before after d => exact ih hids'
    | arrayOf r drafts c =>
      have hadds : r.AddsArrays (Registry.arrayOf c r).2 := .single ⟨c, rfl⟩
      exact hadds.entries_induction array hfresh.registry hids (ih hids')
    | erase r drafts t =>
      exact (Registry.ensures_erase r t r .refl).entries_induction array hfresh.registry hids
        (ih hids')

end Registration

end ScriptSurface
