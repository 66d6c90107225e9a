import ScriptSurface.Proofs.Member.Inheritance

/-!
# What options add to members

With properties, a table has more to it than without: accessors, the names of their properties, and
the properties that overloads stand for.  `MemberTable.AddsPropertiesTo` says that this is all, so
fields, overloads and the order of overloads are the same.  With protected declarations, a table has
all names and signatures that it has without them, though other declarations may be behind these:
`MemberTable.Extends`.

Both hold of own members (`Environment.addsPropertiesTo_ownMembers`,
`Environment.extends_ownMembers`), whose fields and methods can be told without regard to the order
in which properties come up, and they pass from the own members on a walk to their merge.
-/

namespace ScriptSurface

/-! ### Options -/

namespace Environment

/-- The environment with properties or without. -/
def withBeanProperties (env : Environment) (on : Bool) : Environment :=
  { env with options := { env.options with beanProperties := on } }

/-- The environment with protected declarations or without. -/
def withProtected (env : Environment) (on : Bool) : Environment :=
  { env with options := { env.options with includeProtected := on } }

end Environment

/-! ### What is added -/

/-- The same callable, standing for no property. -/
def Binding.withoutProperty (b : Binding) : Binding := { b with property := none }

namespace Slot

/-- Whether there is an accessor. -/
def isProperty (s : Slot) : Bool := s.getter.isSome || s.setter.isSome

/-- What is behind a name with properties, against what is behind it without. -/
structure AddsPropertiesTo (s plain : Slot) : Prop where
  /-- The field is the same. -/
  field : s.field = plain.field
  /-- The signatures are the same, in the same order. -/
  signatures : s.overloads.keys = plain.overloads.keys
  /-- The overloads are the same, but for the properties they stand for. -/
  overload : ∀ σ, (s.overloads.find? σ).map Binding.withoutProperty = plain.overloads.find? σ
  /-- Without properties there are no accessors. -/
  isProperty : plain.isProperty = false

end Slot

namespace MemberTable

/-- Members with properties, against those without. -/
structure AddsPropertiesTo (t plain : MemberTable) : Prop where
  /-- Only names of properties are added. -/
  names : ∀ n, n ∈ t.keys ↔ n ∈ plain.keys ∨ (t.slotAt n).isProperty = true
  /-- Only accessors are added. -/
  slots : ∀ n, (t.slotAt n).AddsPropertiesTo (plain.slotAt n)

/-- A table has all names and signatures of another one. -/
structure Extends (t base : MemberTable) : Prop where
  /-- No name is lost. -/
  names : ∀ n ∈ base.keys, n ∈ t.keys
  /-- No signature is lost. -/
  signatures : ∀ n, ∀ σ ∈ (base.slotAt n).overloads.keys, σ ∈ (t.slotAt n).overloads.keys

end MemberTable

/-! ### Own members -/

theorem MemberTable.IsOwn.isProperty_iff {env : Environment} {c : ClassId}
    {fields : List FieldDecl} {methods : List Executable} {t : MemberTable}
    (h : t.IsOwn env c fields methods) (n : String) :
    (t.slotAt n).isProperty = true ↔ ∃ m ∈ methods, ∃ a, env.accessor? c m = some (a, n) := by
  rw [Slot.isProperty, (h.slots n).getter, (h.slots n).setter, Option.isSome_map, Option.isSome_map,
    Bool.or_eq_true, List.find?_isSome, List.find?_isSome]
  simp only [List.mem_reverse, decide_eq_true_eq]
  constructor
  · rintro (⟨m, hm, ha⟩ | ⟨m, hm, ha⟩)
    · exact ⟨m, hm, _, ha⟩
    · exact ⟨m, hm, _, ha⟩
  · rintro ⟨m, hm, a, ha⟩
    cases a with
    | getter => exact .inl ⟨m, hm, ha⟩
    | setter => exact .inr ⟨m, hm, ha⟩

namespace Environment

variable (env : Environment) (c : ClassId)

/-- Properties do not get in the way of the members there are without them. -/
theorem addsPropertiesTo_ownMembers :
    ((env.withBeanProperties true).ownMembers c).AddsPropertiesTo
      ((env.withBeanProperties false).ownMembers c) := by
  have hoff := (env.withBeanProperties false).isOwn_ownMembers c
  have hon := (env.withBeanProperties true).isOwn_ownMembers c
  have hnone : ∀ m, (env.withBeanProperties false).accessor? c m = none := fun m => rfl
  have hbind : (env.withBeanProperties false).bindMethod c
      = fun m => ((env.withBeanProperties true).bindMethod c m).withoutProperty := rfl
  -- the same fields and methods are gone through either way, in one order and under the same names
  refine ⟨fun n => ?_, fun n => ⟨?_, ?_, fun σ => ?_, ?_⟩⟩
  · rw [hon.isProperty_iff, hon.names, hoff.names]
    simp only [hnone, reduceCtorEq, exists_false, or_false, and_or_left, exists_or, ← or_assoc]
    rfl
  · exact (hon.slots n).field.trans (hoff.slots n).field.symm
  · exact (hon.slots n).signatures.trans (hoff.slots n).signatures.symm
  · rw [(hoff.slots n).overload, (hon.slots n).overload, hbind, Option.map_map]
    rfl
  · rw [← Bool.not_eq_true, hoff.isProperty_iff]
    simp [hnone]

theorem exposedFields_withProtected_subset :
    (env.withProtected false).exposedFields c ⊆ (env.withProtected true).exposedFields c := by
  intro f hf
  rw [mem_exposedFields_iff, List.mem_filter] at hf ⊢
  obtain ⟨hshown, hdeclared, heligible⟩ := hf
  refine ⟨hshown, hdeclared, ?_⟩
  simp only [isEligibleField, withProtected, Bool.false_and, Bool.or_false,
    Bool.and_eq_true] at heligible
  simp [isEligibleField, heligible]

theorem exposedMethods_withProtected_subset :
    (env.withProtected false).exposedMethods c ⊆ (env.withProtected true).exposedMethods c := by
  intro m hm
  rw [mem_exposedMethods_iff, List.mem_filter] at hm ⊢
  obtain ⟨hshown, hdeclared, heligible⟩ := hm
  refine ⟨hshown, hdeclared, ?_⟩
  simp only [isEligibleMethod, withProtected, Bool.false_and, Bool.or_false,
    Bool.and_eq_true] at heligible
  simp [isEligibleMethod, heligible]

/-- Names and signatures with protected declarations are those of more fields and methods. -/
theorem extends_ownMembers :
    ((env.withProtected true).ownMembers c).Extends ((env.withProtected false).ownMembers c) := by
  have hoff := (env.withProtected false).isOwn_ownMembers c
  have hon := (env.withProtected true).isOwn_ownMembers c
  have hmethods := env.exposedMethods_withProtected_subset c
  refine ⟨fun n hn => ?_, fun n σ hσ => ?_⟩
  · rw [hoff.names] at hn
    rw [hon.names]
    rcases hn with ⟨f, hf, hname⟩ | ⟨m, hm, hname⟩
    · exact .inl ⟨f, env.exposedFields_withProtected_subset c hf, hname⟩
    · exact .inr ⟨m, hmethods hm, hname⟩
  · rw [(hoff.slots n).signatures, List.mem_eraseDups, List.mem_map] at hσ
    rw [(hon.slots n).signatures, List.mem_eraseDups, List.mem_map]
    obtain ⟨m, hm, rfl⟩ := hσ
    obtain ⟨hm, hname⟩ := List.mem_filter.1 hm
    exact ⟨m, List.mem_filter.2 ⟨hmethods hm, hname⟩, rfl⟩

end Environment

/-! ### Merges -/

theorem Binding.merge?_map_withoutProperty (bs : List Binding) :
    (merge? bs).map withoutProperty = merge? (bs.map withoutProperty) := by
  have hnone : (bs.map withoutProperty).findSome? property = none := by
    rw [List.findSome?_eq_none_iff]
    simp [withoutProperty]
  have hhidden : (bs.map withoutProperty).any hidden = bs.any hidden := by
    rw [List.any_map]
    rfl
  rw [merge?, merge?, hnone, hhidden, List.getLast?_map, Option.map_map, Option.map_map]
  rfl

theorem Slot.IsMerge.isProperty_iff {own : List Slot} {s : Slot} (h : s.IsMerge own) :
    s.isProperty = true ↔ ∃ o ∈ own, o.isProperty = true := by
  simp only [isProperty, h.getter, h.setter, Bool.or_eq_true, List.findSome?_isSome_iff,
    and_or_left, exists_or]

section Walk

variable {κ : Type} {walk : List κ}

/-- What is added along a walk is added to the merge. -/
theorem Slot.IsMerge.addsPropertiesTo {own plain : κ → Slot} {s s' : Slot}
    (h : s.IsMerge (walk.map own)) (h' : s'.IsMerge (walk.map plain))
    (howns : ∀ k, (own k).AddsPropertiesTo (plain k)) : s.AddsPropertiesTo s' where
  field := by
    have hfield : Slot.field ∘ own = Slot.field ∘ plain := funext fun k => (howns k).field
    rw [h.field, h'.field, List.findSome?_map, List.findSome?_map, hfield]
  signatures := by
    rw [h.signatures, h'.signatures, List.flatMap_map, List.flatMap_map]
    congr 1
    exact List.flatMap_congr fun k _ => (howns k).signatures
  overload σ := by
    rw [h.overload, h'.overload, Binding.merge?_map_withoutProperty, List.map_filterMap,
      List.filterMap_map, List.filterMap_map]
    congr 1
    exact List.filterMap_congr fun k _ => (howns k).overload σ
  isProperty := by
    rw [← Bool.not_eq_true, h'.isProperty_iff]
    simp [(howns _).isProperty]

variable {own base : κ → MemberTable} {t t' : MemberTable}

theorem MemberTable.IsMerge.addsPropertiesTo (h : t.IsMerge (walk.map own))
    (h' : t'.IsMerge (walk.map base)) (howns : ∀ k, (own k).AddsPropertiesTo (base k)) :
    t.AddsPropertiesTo t' where
  names n := by
    rw [h.names, h'.names, (h.slotAt n).isProperty_iff]
    simp only [List.mem_map, exists_exists_and_eq_and, (howns _).names, and_or_left, exists_or]
  slots n := (h.slotAt n).addsPropertiesTo (h'.slotAt n) fun k => (howns k).slots n

theorem MemberTable.IsMerge.extends (h : t.IsMerge (walk.map own)) (h' : t'.IsMerge (walk.map base))
    (howns : ∀ k, (own k).Extends (base k)) : t.Extends t' where
  names n hn := by
    rw [h'.names] at hn
    rw [h.names]
    simp only [List.mem_map, exists_exists_and_eq_and] at hn ⊢
    exact hn.imp fun k hk => ⟨hk.1, (howns k).names n hk.2⟩
  signatures n σ hσ := by
    rw [(h'.slotAt n).mem_keys_iff] at hσ
    rw [(h.slotAt n).mem_keys_iff]
    simp only [List.mem_map, exists_exists_and_eq_and] at hσ ⊢
    exact hσ.imp fun k hk => ⟨hk.1, (howns k).signatures n σ hk.2⟩

end Walk

end ScriptSurface
