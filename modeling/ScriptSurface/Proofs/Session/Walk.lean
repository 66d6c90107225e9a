import Mathlib.Data.Set.Finite.Range
import ScriptSurface.Proofs.Levels
import ScriptSurface.Session.Members

/-!
# The walk through the supertypes of a type

`Key.supertypes h` is the step of the walk: it goes by the interfaces and the superclass that the
host reports.  `Descriptor.of h key` is the descriptor that a host's types call for, and the step is
what it says (`Descriptor.supertypes_of`).

The step leads from keys of classes to keys of classes, so there are no more keys on a walk than
there are classes; and it leads down a measure when the hierarchy of classes is acyclic, though all
array types share one key.  So the walk is that of a queue run until
it is empty (`Descriptor.Key.dequeues_walk`), it follows all paths
(`Descriptor.Key.exists_follows_walk`), and past its start it interleaves the walks from the
supertypes (`Descriptor.Key.exists_walk_eq`).
-/

namespace ScriptSurface

open Descriptor (Key)

/-! ### What descriptors say -/

theorem Descriptor.Key.cls_ofClass {h : HostTypes} {c : ClassId} (hobject : ofClass h c ≠ object)
    (harray : ofClass h c ≠ array) : (ofClass h c).cls = c := by
  unfold ofClass at hobject harray ⊢
  split_ifs at hobject harray ⊢ with hc hc'
  · exact absurd rfl hobject
  · exact hc'.symm
  · exact absurd rfl harray
  · rfl

/-- The descriptor for a key, going by what a host reports. -/
def Descriptor.of (h : HostTypes) : Key → Descriptor
  | .object => ⟨h.name ClassId.object, none, []⟩
  | .array => ⟨h.name ClassId.objectArray, some .object, []⟩
  | key =>
    ⟨h.name key.cls, (h.superclass key.cls).map (Key.ofClass h),
      (h.interfaces key.cls).map (Key.ofClass h)⟩

/-- The descriptor of a class other than the base type and the array classes. -/
theorem Descriptor.of_ofClass {h : HostTypes} {c : ClassId} (hobject : Key.ofClass h c ≠ .object)
    (harray : Key.ofClass h c ≠ .array) :
    Descriptor.of h (Key.ofClass h c)
      = ⟨h.name c, (h.superclass c).map (Key.ofClass h), (h.interfaces c).map (Key.ofClass h)⟩ := by
  have hcls := Key.cls_ofClass hobject harray
  cases hkey : Key.ofClass h c with
  | object => exact absurd hkey hobject
  | array => exact absurd hkey harray
  | _ =>
    rw [hkey] at hcls
    rw [Descriptor.of, hcls] <;> nofun

namespace Descriptor.Key

/-- The direct supertypes of a type: the interfaces that the host reports, in declaration order, and
then the superclass.  The base type has none, and the array types have the base type. -/
def supertypes (h : HostTypes) : Key → List Key
  | object => []
  | array => [object]
  | key => (h.interfaces key.cls ++ (h.superclass key.cls).toList).map (ofClass h)

/-- The types on the walk through the supertypes of a type, breadth first. -/
def walk (h : HostTypes) (key : Key) : List Key :=
  breadthFirst (supertypes h) ClassId.count key

variable {h : HostTypes}

theorem supertypes_of_ne {key : Key} (hobject : key ≠ object) (harray : key ≠ array) :
    supertypes h key = (h.supertypes key.cls).map (ofClass h) := by
  cases key with
  | object => exact absurd rfl hobject
  | array => exact absurd rfl harray
  | metatype => rfl
  | general c => rfl

theorem mem_range_of_mem_supertypes {key k : Key} (hk : k ∈ supertypes h key) :
    k ∈ Set.range (ofClass h) := by
  by_cases hobject : key = object
  · simp [hobject, supertypes] at hk
  by_cases harray : key = array
  · refine ⟨ClassId.object, ?_⟩
    rw [harray] at hk
    simpa [supertypes, ofClass, eq_comm] using hk
  · rw [supertypes_of_ne hobject harray, List.mem_map] at hk
    obtain ⟨p, -, hp⟩ := hk
    exact ⟨p, hp⟩

end Descriptor.Key

/-- The descriptor of a type says what its supertypes are. -/
theorem Descriptor.supertypes_of (h : HostTypes) (key : Key) :
    (Descriptor.of h key).supertypes = Key.supertypes h key := by
  have hlinks (k : Key) : ((h.interfaces k.cls).map (Key.ofClass h)
      ++ ((h.superclass k.cls).map (Key.ofClass h)).toList)
        = (h.interfaces k.cls ++ (h.superclass k.cls).toList).map (Key.ofClass h) := by
    rw [List.map_append, Option.toList_map]
  cases key with
  | object => rfl
  | array => rfl
  | metatype => exact hlinks .metatype
  | general c => exact hlinks (.general c)

/-! ### The walk -/

/-- A rank of classes as a measure of keys: the base type is below the array types, and both are
below all other types. -/
def Descriptor.Key.measure (rank : ClassId → ℕ) : Key → ℕ
  | .object => 0
  | .array => 1
  | key => rank key.cls + 2

namespace Descriptor.Key

variable {h : HostTypes} {rank : ClassId → ℕ}

theorem measure_ofClass_le (c : ClassId) : (ofClass h c).measure rank ≤ rank c + 2 := by
  unfold ofClass
  split_ifs with hobject hmetatype
  · exact Nat.zero_le _
  · rw [hmetatype]
    rfl
  · show 1 ≤ rank c + 2
    omega
  · rfl

theorem measure_lt_of_mem_supertypes (hrank : ∀ c, ∀ p ∈ h.supertypes c, rank p < rank c)
    {key k : Key} (hk : k ∈ supertypes h key) : k.measure rank < key.measure rank := by
  have hdown (hobject : key ≠ object) (harray : key ≠ array) :
      k.measure rank < rank key.cls + 2 := by
    rw [supertypes_of_ne hobject harray, List.mem_map] at hk
    obtain ⟨p, hp, rfl⟩ := hk
    have := hrank _ p hp
    have : (ofClass h p).measure rank ≤ rank p + 2 := measure_ofClass_le p
    omega
  cases key with
  | object => simp [supertypes] at hk
  | array =>
    have hobject : k = object := by
      simpa [supertypes] using hk
    rw [hobject]
    exact Nat.zero_lt_one
  | metatype => exact hdown nofun nofun
  | general c => exact hdown nofun nofun

theorem ncard_range_le : (Set.range (ofClass h)).ncard ≤ ClassId.count := by
  rw [← Set.image_univ]
  refine (Set.ncard_image_le Set.finite_univ).trans ?_
  rw [Set.ncard_univ]
  exact ClassId.card_le

/-- In an acyclic hierarchy the types have ranks, smaller than the number of classes and greater
than the ranks of their supertypes. -/
theorem exists_rank (hac : h.Acyclic) :
    ∃ level : Key → ℕ, ∀ k ∈ Set.range (ofClass h),
      level k < ClassId.count ∧ ∀ p ∈ supertypes h k, level p < level k := by
  obtain ⟨rank, hrank⟩ := hac.exists_rank
  obtain ⟨level, hlevel⟩ := exists_rank_lt_ncard (Set.finite_range (ofClass h))
    (fun _ _ _ hb => mem_range_of_mem_supertypes hb)
    fun k _ => acyclic_of_measure (Key.measure rank) (fun _ _ hk =>
      measure_lt_of_mem_supertypes (fun c => (hrank c).2) hk) k
  exact ⟨level, fun k hk => ⟨(hlevel k hk).1.trans_le ncard_range_le, (hlevel k hk).2⟩⟩

/-- In an acyclic hierarchy the walk from a class ends with an empty queue. -/
theorem dequeues_walk (hac : h.Acyclic) (c : ClassId) :
    Dequeues (supertypes h) [ofClass h c] (walk h (ofClass h c)) := by
  obtain ⟨level, hlevel⟩ := exists_rank hac
  exact dequeues_breadthFirst (fun _ _ _ hb => mem_range_of_mem_supertypes hb)
    (fun k hk => (hlevel k hk).2) ⟨c, rfl⟩ (hlevel _ ⟨c, rfl⟩).1

/-- In an acyclic hierarchy the walk from a class follows all paths of links to supertypes. -/
theorem exists_follows_walk (hac : h.Acyclic) (c : ClassId) :
    ∃ paths, Follows (supertypes h) (ofClass h c) paths (walk h (ofClass h c)) := by
  obtain ⟨level, hlevel⟩ := exists_rank hac
  exact ⟨_, follows_breadthFirst (fun _ _ _ hb => mem_range_of_mem_supertypes hb)
    (fun k hk => (hlevel k hk).2) ⟨c, rfl⟩ (hlevel _ ⟨c, rfl⟩).1⟩

/-- Past the class itself, the walk from a class goes through as many levels as it takes to get to
the end of the walk from each of its supertypes. -/
theorem exists_walk_eq (hac : h.Acyclic) (c : ClassId) :
    ∃ n, walk h (ofClass h c)
        = ofClass h c :: levelsFrom (supertypes h) n (supertypes h (ofClass h c)) ∧
      ∀ k ∈ supertypes h (ofClass h c), walk h k = levelsFrom (supertypes h) n [k] := by
  obtain ⟨level, hlevel⟩ := exists_rank hac
  obtain ⟨n, hn⟩ : ∃ n, ClassId.count = n + 1 := ⟨_, rfl⟩
  refine ⟨n, ?_, fun k hk => ?_⟩
  · rw [walk, breadthFirst, hn, levelsFrom_succ, List.flatMap_singleton]
    rfl
  · have hmem := mem_range_of_mem_supertypes hk
    have hk' := (hlevel _ ⟨c, rfl⟩).2 k hk
    have hc := (hlevel _ ⟨c, rfl⟩).1
    refine levelsFrom_eq_of_rank (fun _ _ _ hb => mem_range_of_mem_supertypes hb)
      (fun k hk => (hlevel k hk).2) (List.forall_mem_singleton.2 ⟨hmem, (hlevel k hmem).1⟩)
      (List.forall_mem_singleton.2 ⟨hmem, ?_⟩)
    omega

end Descriptor.Key

end ScriptSurface
