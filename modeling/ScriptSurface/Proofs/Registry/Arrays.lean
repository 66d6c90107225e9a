import ScriptSurface.Proofs.Registry.Growth
import ScriptSurface.Proofs.TypeExpr.Erasure

/-!
# Array classes

Each component has one array class, and each array class one component
(`Registry.Coherent.eq_of_array?`).  `Registry.IsArrays r k c a` says that `a` is the array class of
the array class … of `c`, so many times.  Asking for these classes in turn ends with one that is
(`Registry.isArrays_arraysOf`), what is so stays so as the registry grows
(`Registry.IsArrays.of_grows`), and either end tells the other.
-/

namespace ScriptSurface

namespace Registry

variable {r r' : Registry} {a a' b c c' : ClassId} {i j k : ℕ}

/-! ### Arrays of arrays -/

/-- Whether a class is that of the arrays of the arrays of … of a class, so many times. -/
def IsArrays (r : Registry) : ℕ → ClassId → ClassId → Prop
  | 0, c, a => a = c
  | k + 1, c, a => ∃ b, r.IsArrays k c b ∧ r.array? b = some a

theorem IsArrays.of_grows (h : r.IsArrays k c a) (hgrows : r.Grows r') : r'.IsArrays k c a := by
  induction k generalizing a with
  | zero => exact h
  | succ k ih =>
    obtain ⟨b, hb, ha⟩ := h
    exact ⟨b, ih hb, hgrows.array? ha⟩

theorem IsArrays.unique (h : r.IsArrays k c a) (h' : r.IsArrays k c a') : a = a' := by
  induction k generalizing a a' with
  | zero => exact h.trans h'.symm
  | succ k ih =>
    obtain ⟨b, hb, ha⟩ := h
    obtain ⟨b', hb', ha'⟩ := h'
    rw [ih hb hb', ha'] at ha
    exact (Option.some.inj ha).symm

theorem IsArrays.component_unique (hr : r.Coherent) (h : r.IsArrays k c a)
    (h' : r.IsArrays k c' a) : c = c' := by
  induction k generalizing a with
  | zero => exact h.symm.trans h'
  | succ k ih =>
    obtain ⟨b, hb, ha⟩ := h
    obtain ⟨b', hb', ha'⟩ := h'
    exact ih hb (hr.eq_of_array? ha ha' ▸ hb')

theorem isArrays_add :
    r.IsArrays (i + j) c a ↔ ∃ b, r.IsArrays j c b ∧ r.IsArrays i b a := by
  induction i generalizing a with
  | zero =>
    rw [Nat.zero_add]
    constructor
    · exact fun h => ⟨a, h, rfl⟩
    · rintro ⟨b, hb, rfl⟩
      exact hb
  | succ i ih =>
    rw [Nat.add_right_comm]
    constructor
    · rintro ⟨x, hx, ha⟩
      obtain ⟨b, hb, hbx⟩ := ih.1 hx
      exact ⟨b, hb, x, hbx, ha⟩
    · rintro ⟨b, hb, x, hbx, ha⟩
      exact ⟨x, ih.2 ⟨b, hb, hbx⟩, ha⟩

/-- The universal base type is no array class. -/
theorem Sound.eq_zero_of_isArrays (hs : r.Sound) (hr : r.Coherent)
    (h : r.IsArrays k c ClassId.object) : k = 0 ∧ c = ClassId.object := by
  cases k with
  | zero => exact ⟨rfl, h.symm⟩
  | succ k =>
    -- the entry of the universal base type is still that of the start
    obtain ⟨b, -, ha⟩ := h
    obtain ⟨e, he, hkind⟩ := hr.exists_entry_of_array? ha
    have hentry : initial.entryOf? ClassId.object = some e := by
      rw [← hs.reserved ClassId.object rfl]
      exact he
    obtain rfl := Option.some.inj hentry
    cases hkind

/-- Arrays of the universal base type are arrays of nothing else. -/
theorem Sound.eq_zero_of_isArrays_add (hs : r.Sound) (hr : r.Coherent)
    (h : r.IsArrays (i + j) c a) (h' : r.IsArrays i ClassId.object a) :
    j = 0 ∧ c = ClassId.object := by
  obtain ⟨b, hb, hba⟩ := isArrays_add.1 h
  obtain rfl := hba.component_unique hr h'
  exact hs.eq_zero_of_isArrays hr hb

/-! ### Asking for arrays of arrays -/

theorem addsArrays_arraysOf (r : Registry) (k : ℕ) (c : ClassId) :
    r.AddsArrays (arraysOf arrayOf k c r).2 := by
  induction k with
  | zero => exact .refl
  | succ k ih => exact ih.tail ⟨_, rfl⟩

theorem addsArrays_arraysOf_add (r : Registry) (i j : ℕ) (c : ClassId) :
    (arraysOf arrayOf j c r).2.AddsArrays (arraysOf arrayOf (i + j) c r).2 := by
  rw [arraysOf_add]
  exact addsArrays_arraysOf _ _ _

theorem isArrays_arraysOf (hr : r.Coherent) (hids : (arraysOf arrayOf k c r).2.HasFreshIds) :
    (arraysOf arrayOf k c r).2.IsArrays k c (arraysOf arrayOf k c r).1 := by
  induction k with
  | zero => rfl
  | succ k ih =>
    have hids : (arrayOf _ (arraysOf arrayOf k c r).2).2.HasFreshIds := hids
    have hids' := hids.of_le (reserved_arrayOf_le _ _)
    have hadds := (addsArrays_arraysOf r k c).adds hr hids'
    exact ⟨_, (ih hids').of_grows (hadds.coherent.adds_arrayOf hids).grows,
      hadds.coherent.array?_arrayOf hids⟩

/-- Of the classes asked for in turn, the last one is the universal base type only if it was there
from the start. -/
theorem Sound.arraysOf_eq_object_iff (hs : r.Sound) (hr : r.Coherent)
    (hids : (arraysOf Registry.arrayOf k c r).2.HasFreshIds) :
    (arraysOf Registry.arrayOf k c r).1 = ClassId.object ↔ k = 0 ∧ c = ClassId.object := by
  constructor
  · intro hobject
    have harrays := isArrays_arraysOf hr hids
    rw [hobject] at harrays
    have hadds := addsArrays_arraysOf r k c
    exact (hs.addsArrays hadds hids).eq_zero_of_isArrays (hadds.adds hr hids).coherent harrays
  · rintro ⟨rfl, rfl⟩
    rfl

end Registry

end ScriptSurface
