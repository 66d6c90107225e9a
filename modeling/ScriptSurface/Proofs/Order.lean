import Mathlib.Data.List.Pairwise
import Mathlib.Data.List.Sort
import Mathlib.Order.Compare
import ScriptSurface.ClassId

/-!
# Sorting

The comparisons of numbers, of texts and of lists are total orders in which only equal things
compare as equal.  So a list is sorted in one way only, whatever order it comes in, as long as no two
of its elements compare as equal (`Order.sort_eq_of_perm`).

Elements that do compare as equal keep the order they come in.  That is what makes it all the same
whether some elements are dropped before the list is sorted or after (`Order.filter_sort`).
-/

namespace ScriptSurface.Order

open Std (TransCmp OrientedCmp LawfulEqCmp)

/-! ### Comparisons -/

theorem numbers_eq_compare : numbers = fun a b : ℕ => compare a b := by
  funext a b
  unfold numbers
  rw [Nat.compare_eq_ite_lt]
  rcases lt_trichotomy a b with h | h | h
  · rw [if_pos h, if_pos h]
  · simp [h]
  · rw [if_neg (by omega), if_neg (by omega), if_neg (by omega), if_pos h]

instance : TransCmp numbers := by
  rw [numbers_eq_compare]
  infer_instance

instance : LawfulEqCmp numbers := by
  rw [numbers_eq_compare]
  infer_instance

section Lists

variable {α : Type} {cmp : α → α → Ordering}

theorem lists_eq_compareLex : lists cmp = List.compareLex cmp := by
  funext as bs
  induction as generalizing bs with
  | nil => cases bs <;> rfl
  | cons a as ih =>
    cases bs with
    | nil => rfl
    | cons b bs => rw [lists, ih, List.compareLex_cons_cons]

instance [TransCmp cmp] : TransCmp (lists cmp) := by
  rw [lists_eq_compareLex]
  infer_instance

instance [LawfulEqCmp cmp] : LawfulEqCmp (lists cmp) := by
  rw [lists_eq_compareLex]
  infer_instance

end Lists

section Pullback

variable {α β : Type} {cmp : α → α → Ordering} (f : β → α)

theorem transCmp_pullback [TransCmp cmp] : TransCmp fun a b => cmp (f a) (f b) where
  eq_swap := OrientedCmp.eq_swap
  isLE_trans := TransCmp.isLE_trans

theorem lawfulEqCmp_pullback [LawfulEqCmp cmp] (hf : Function.Injective f) :
    LawfulEqCmp fun a b => cmp (f a) (f b) where
  compare_self := Std.ReflCmp.compare_self
  eq_of_compare h := hf (LawfulEqCmp.eq_of_compare h)

end Pullback

theorem char_toNat_injective : Function.Injective Char.toNat :=
  fun _ _ h => Char.ext (UInt32.toNat_inj.1 h)

theorem string_toList_injective : Function.Injective String.toList :=
  fun _ _ h => String.toList_inj.1 h

instance : TransCmp texts :=
  have : TransCmp fun c d : Char => numbers c.toNat d.toNat := transCmp_pullback Char.toNat
  have : TransCmp fun a b : String =>
      lists (fun c d : Char => numbers c.toNat d.toNat) a.toList b.toList :=
    transCmp_pullback String.toList
  this

instance : LawfulEqCmp texts :=
  have : LawfulEqCmp fun c d : Char => numbers c.toNat d.toNat :=
    lawfulEqCmp_pullback Char.toNat char_toNat_injective
  have : LawfulEqCmp fun a b : String =>
      lists (fun c d : Char => numbers c.toNat d.toNat) a.toList b.toList :=
    lawfulEqCmp_pullback String.toList string_toList_injective
  this

instance : TransCmp ClassId.order := transCmp_pullback fun c : ClassId => c.index.toNat

instance : LawfulEqCmp ClassId.order :=
  lawfulEqCmp_pullback (fun c : ClassId => c.index.toNat) fun c d h => by
    cases c; cases d
    exact congrArg ClassId.mk (UInt32.toNat_inj.1 h)

/-! ### Sorted lists -/

section Sorting

variable {α : Type} (cmp : α → α → Ordering)

/-- The elements in ascending order, those that compare as equal in the order given. -/
def sort (l : List α) : List α := l.mergeSort fun a b => (cmp a b).isLE

theorem sort_perm (l : List α) : (sort cmp l).Perm l := List.mergeSort_perm _ _

variable [TransCmp cmp]

theorem isLE_total (a b : α) : ((cmp a b).isLE || (cmp b a).isLE) = true := by
  have hswap : cmp b a = (cmp a b).swap := OrientedCmp.eq_swap
  rw [hswap]
  cases cmp a b <;> rfl

theorem pairwise_sort (l : List α) : (sort cmp l).Pairwise fun a b => (cmp a b).isLE = true :=
  List.pairwise_mergeSort (fun _ _ _ => TransCmp.isLE_trans) (isLE_total cmp) l

/-- Where no element comes twice and only equal ones compare as equal, sorting puts the elements in
strictly ascending order. -/
theorem pairwise_sort_of_nodup [LawfulEqCmp cmp] {l : List α} (h : l.Nodup) :
    (sort cmp l).Pairwise fun a b => cmp a b = .lt := by
  have hnodup : (sort cmp l).Nodup := (sort_perm cmp l).nodup_iff.2 h
  refine ((pairwise_sort cmp l).and hnodup).imp fun {a b} hab => ?_
  cases hcmp : cmp a b with
  | lt => rfl
  | eq => exact absurd (LawfulEqCmp.eq_of_compare hcmp) hab.2
  | gt =>
    rw [hcmp] at hab
    cases hab.1

/-- Sorting does not depend on the order given where no two elements compare as equal. -/
theorem sort_eq_of_perm {l l' : List α} (hperm : l.Perm l')
    (hne : l.Pairwise fun a b => cmp a b ≠ .eq) : sort cmp l = sort cmp l' := by
  have : Std.Symm fun a b => cmp a b ≠ .eq := ⟨fun a b h heq => h (OrientedCmp.eq_symm heq)⟩
  have hsorted : (sort cmp l).Perm (sort cmp l') :=
    ((sort_perm cmp l).trans hperm).trans (sort_perm cmp l').symm
  refine hsorted.eq_of_pairwise (fun a b ha hb hab hba => ?_) (pairwise_sort cmp l)
    (pairwise_sort cmp l')
  by_contra hne'
  have ha : a ∈ l := (sort_perm cmp l).mem_iff.1 ha
  have hb : b ∈ l := hperm.mem_iff.2 ((sort_perm cmp l').mem_iff.1 hb)
  exact hne.forall ha hb hne' (OrientedCmp.isLE_antisymm hab hba)

/-- What is left of a list is sorted the same in whatever order the list comes, where elements that
compare as equal would have the same key and no two elements have. -/
theorem sort_filter_eq_of_perm {κ : Type} {key : α → κ}
    (hkey : ∀ a b, cmp a b = .eq → key a = key b) {l l' : List α} (hperm : l.Perm l')
    (hnodup : (l.map key).Nodup) (p : α → Bool) :
    sort cmp (l.filter p) = sort cmp (l'.filter p) := by
  have hkeys : ((l.filter p).map key).Nodup := (List.filter_sublist.map key).nodup hnodup
  refine sort_eq_of_perm cmp (hperm.filter p) ?_
  exact (List.pairwise_map.1 hkeys).imp fun hne heq => hne (hkey _ _ heq)

/-- An element that comes first is put in before the first one that it may stand before. -/
theorem sort_cons (a : α) (l : List α) :
    sort cmp (a :: l) = (sort cmp l).orderedInsert (fun a b => (cmp a b).isLE) a := by
  obtain ⟨l₁, l₂, hcons, hl, hl₁⟩ :=
    List.mergeSort_cons (fun _ _ _ => TransCmp.isLE_trans) (isLE_total cmp) a l
  have hsorted : (l₁ ++ a :: l₂).Pairwise fun a b => (cmp a b).isLE = true :=
    hcons ▸ pairwise_sort cmp (a :: l)
  show (a :: l).mergeSort _ = (l.mergeSort _).orderedInsert _ a
  rw [hcons, hl]
  clear hcons hl
  induction l₁ with
  | nil =>
    cases l₂ with
    | nil => rfl
    | cons b l₂ =>
      have hb : (cmp a b).isLE = true := (List.pairwise_cons.1 hsorted).1 b List.mem_cons_self
      exact (List.orderedInsert_cons_of_le _ l₂ hb).symm
  | cons b l₁ ih =>
    have hb : (cmp a b).isLE = false := by simpa using hl₁ b List.mem_cons_self
    rw [List.cons_append, List.cons_append, List.orderedInsert_of_not_le _ _ (by simp [hb]),
      ih (fun c hc => hl₁ c (List.mem_cons_of_mem _ hc)) (List.pairwise_cons.1 hsorted).2]

/-- Sorting by merging sorted parts comes to the same as putting in one element after the other. -/
theorem sort_eq_insertionSort (l : List α) :
    sort cmp l = l.insertionSort fun a b => (cmp a b).isLE := by
  induction l with
  | nil => simp [sort]
  | cons a l ih => rw [sort_cons, ih, List.insertionSort_cons]

omit [TransCmp cmp] in
theorem orderedInsert_of_forall_le {a : α} {l : List α} (h : ∀ b ∈ l, (cmp a b).isLE = true) :
    l.orderedInsert (fun a b => (cmp a b).isLE) a = a :: l := by
  cases l with
  | nil => rfl
  | cons b l => exact List.orderedInsert_cons_of_le _ l (h b List.mem_cons_self)

theorem filter_orderedInsert (p : α → Bool) (a : α) {l : List α}
    (h : l.Pairwise fun a b => (cmp a b).isLE = true) :
    (l.orderedInsert (fun a b => (cmp a b).isLE) a).filter p
      = if p a then (l.filter p).orderedInsert (fun a b => (cmp a b).isLE) a else l.filter p := by
  induction l with
  | nil => cases hp : p a <;> simp [hp]
  | cons b l ih =>
    obtain ⟨hb, hl⟩ := List.pairwise_cons.1 h
    by_cases hab : (cmp a b).isLE = true
    · -- `a` may stand before all of the list, and so before what is left of it
      have hle : ∀ c ∈ (b :: l).filter p, (cmp a c).isLE = true := by
        intro c hc
        rcases List.mem_cons.1 (List.mem_filter.1 hc).1 with rfl | hc
        · exact hab
        · exact TransCmp.isLE_trans hab (hb c hc)
      rw [List.orderedInsert_cons_of_le _ l hab, orderedInsert_of_forall_le cmp hle,
        List.filter_cons]
    · rw [List.orderedInsert_of_not_le _ l hab, List.filter_cons, List.filter_cons, ih hl]
      split_ifs
      · rw [List.orderedInsert_cons, if_neg hab]
      · rfl
      · rfl
      · rfl

/-- It is all the same whether elements are dropped before sorting or after. -/
theorem filter_sort (p : α → Bool) (l : List α) :
    (sort cmp l).filter p = sort cmp (l.filter p) := by
  induction l with
  | nil => simp [sort]
  | cons a l ih =>
    rw [sort_cons, filter_orderedInsert cmp p a (pairwise_sort cmp l), ih, List.filter_cons]
    split_ifs
    · rw [sort_cons]
    · rfl

/-! ### Stable sorts -/

/-- The second list holds the elements of the first in ascending order, and those that compare as
equal in the order in which they come in the first. -/
structure IsStableSort (l sorted : List α) : Prop where
  /-- The elements are the same. -/
  perm : sorted.Perm l
  /-- They ascend. -/
  ascending : sorted.Pairwise fun a b => (cmp a b).isLE = true
  /-- Those that compare as equal keep their order. -/
  stable : ∀ a, (sorted.filter fun b => cmp a b = .eq) = l.filter fun b => cmp a b = .eq

theorem isStableSort_sort (l : List α) : IsStableSort cmp l (sort cmp l) where
  perm := sort_perm cmp l
  ascending := pairwise_sort cmp l
  stable a := by
    have hequal : (l.filter fun b => cmp a b = .eq).Pairwise fun b c => (cmp b c).isLE = true := by
      refine List.pairwise_of_forall_mem_list fun b hb c hc => ?_
      have hb : cmp a b = .eq := by simpa using (List.mem_filter.1 hb).2
      have hc : cmp a c = .eq := by simpa using (List.mem_filter.1 hc).2
      rw [TransCmp.congr_left (OrientedCmp.eq_symm hb), hc]
      rfl
    rw [filter_sort]
    exact List.mergeSort_of_pairwise hequal

/-- In ascending order, the elements and the order of those that compare as equal leave nothing
open. -/
theorem eq_of_perm_of_filter_eq {l l' : List α}
    (hl : l.Pairwise fun a b => (cmp a b).isLE = true)
    (hl' : l'.Pairwise fun a b => (cmp a b).isLE = true) (hperm : l.Perm l')
    (hequal : ∀ a, (l.filter fun b => cmp a b = .eq) = l'.filter fun b => cmp a b = .eq) :
    l = l' := by
  induction l generalizing l' with
  | nil => exact hperm.nil_eq
  | cons x l ih =>
    cases l' with
    | nil => exact hperm.eq_nil
    | cons y l' =>
      obtain ⟨hx, hrest⟩ := List.pairwise_cons.1 hl
      obtain ⟨hy, hrest'⟩ := List.pairwise_cons.1 hl'
      have hself : ∀ a, cmp a a = .eq := fun a => Std.ReflCmp.compare_self
      -- neither head is above the other, so they compare as equal, and then the order decides
      have hxy : (cmp x y).isLE = true := by
        rcases List.mem_cons.1 (hperm.mem_iff.2 List.mem_cons_self) with rfl | hmem
        · rw [hself]; rfl
        · exact hx y hmem
      have hyx : (cmp y x).isLE = true := by
        rcases List.mem_cons.1 (hperm.mem_iff.1 List.mem_cons_self) with rfl | hmem
        · rw [hself]; rfl
        · exact hy x hmem
      have hheads := hequal x
      rw [List.filter_cons_of_pos (by simpa using hself x),
        List.filter_cons_of_pos (by simpa using OrientedCmp.isLE_antisymm hxy hyx)] at hheads
      obtain rfl := (List.cons.inj hheads).1
      refine congrArg (x :: ·) (ih hrest hrest' hperm.cons_inv fun a => ?_)
      have ha := hequal a
      rw [List.filter_cons, List.filter_cons] at ha
      split_ifs at ha
      · exact (List.cons.inj ha).2
      · exact ha

/-- There is only one stable sort of a list. -/
theorem IsStableSort.unique {l a b : List α} (ha : IsStableSort cmp l a)
    (hb : IsStableSort cmp l b) : a = b :=
  eq_of_perm_of_filter_eq cmp ha.ascending hb.ascending (ha.perm.trans hb.perm.symm) fun c =>
    (ha.stable c).trans (hb.stable c).symm

end Sorting

end ScriptSurface.Order
