import ScriptSurface.Proofs.Mapping.Bindings

/-!
# Mappings and the variables of ancestors

In a host whose classes name their supertypes in full (`HostTypes.WellDeclared`), the mapping of a
class speaks of its ancestors in its own terms: it binds what they declare (`isSome_find?_of`) and
nothing else (`hasAncestor_of_find?_of`), and its targets mention only variables of the class itself
(`declares_of_find?_of`).  Each is an induction on the rank of the class.  A target is an argument
of a declared supertype or a supertype's target with such arguments put in; since a supertype's
target mentions only what the supertype declares, and all of that is bound directly, none of its
variables is left.
-/

namespace ScriptSurface

open TypeExpr (occurrences)

namespace Mapping

variable {h : HostTypes} {limit : ℕ} {a c p : ClassId} {v w : TypeVar} {target t : TypeExpr}

/-! ### What is bound -/

theorem mem_supertypes_of_find?_direct (hreg : h.Regular)
    (hv : (direct h c).find? v = some target) : v.owner ∈ h.supertypes c := by
  obtain ⟨raw, args, s, he, hraw, -⟩ := exists_applied_of_find?_direct hv
  rw [hraw.1]
  exact hreg.mem_supertypes he rfl

/-- What a direct supertype declares is bound directly. -/
theorem isSome_find?_direct_of_declares (hreg : h.Regular) (hdecl : h.WellDeclared)
    (hp : p ∈ h.supertypes c) (hv : h.Declares p v) : ((direct h c).find? v).isSome := by
  obtain ⟨e, he, hnames⟩ := hdecl.exists_names hreg hp
  obtain ⟨args, s, rfl, hargs⟩ := hnames.exists_applied hv
  exact isSome_find?_direct he hargs hv

theorem isTrivial_eq_false (hac : h.Acyclic) (hv : (of h limit c).find? v = some target) :
    isTrivial h c = false := by
  rw [← Bool.not_eq_true]
  intro hc
  rw [find?_of_trivial hac limit hc] at hv
  cases hv

/-- Where a target comes from: it is direct, or a supertype's target is behind it. -/
theorem find?_of_cases (hac : h.Acyclic) (hv : (of h limit c).find? v = some target) :
    (direct h c).find? v = some target ∨
      ∃ p ∈ h.supertypes c, ∃ u, (of h limit p).find? v = some u ∧
        target = u.substitute (direct h c).find? limit := by
  rw [find?_of hac limit (isTrivial_eq_false hac hv), Option.or_eq_some_iff] at hv
  rcases hv with hv | ⟨-, hv⟩
  · exact .inl hv
  · obtain ⟨u, hu, rfl⟩ := Option.map_eq_some_iff.1 hv
    obtain ⟨p, hp, hpu⟩ := List.exists_of_findSome?_eq_some hu
    exact .inr ⟨p, List.mem_reverse.1 hp, u, hpu, rfl⟩

/-- Induction on what is bound, from supertypes down. -/
theorem bound_induction (hac : h.Acyclic) {P : ClassId → TypeVar → TypeExpr → Prop}
    (hdirect : ∀ c v target, (direct h c).find? v = some target → P c v target)
    (hinherited : ∀ c v u, ∀ p ∈ h.supertypes c, (of h limit p).find? v = some u → P p v u →
      P c v (u.substitute (direct h c).find? limit))
    (hv : (of h limit c).find? v = some target) : P c v target := by
  obtain ⟨rank, hrank⟩ := hac.exists_rank
  induction hn : rank c using Nat.strong_induction_on generalizing c target with
  | _ n ih =>
    rcases find?_of_cases hac hv with hv | ⟨p, hp, u, hu, rfl⟩
    · exact hdirect c v target hv
    · have hlt : rank p < n := hn ▸ (hrank c).2 p hp
      exact hinherited c v u p hp hu (ih (rank p) hlt hu rfl)

/-- Only variables of ancestors are bound. -/
theorem hasAncestor_of_find?_of (hac : h.Acyclic) (hreg : h.Regular)
    (hv : (of h limit c).find? v = some target) : h.HasAncestor c v.owner := by
  refine bound_induction (P := fun c v _ => h.HasAncestor c v.owner) hac ?_ ?_ hv
  · exact fun c v target hv => .single (mem_supertypes_of_find?_direct hreg hv)
  · exact fun c v u p hp _ ih => .head hp ih

theorem find?_of_eq_none (hac : h.Acyclic) (hreg : h.Regular) (hv : v.owner = c) :
    (of h limit c).find? v = none := by
  cases hfind : (of h limit c).find? v with
  | none => rfl
  | some target =>
    have := hasAncestor_of_find?_of hac hreg hfind
    rw [hv] at this
    exact absurd this (hac c)

/-- All that a proper ancestor declares is bound. -/
theorem isSome_find?_of (hac : h.Acyclic) (hreg : h.Regular) (hdecl : h.WellDeclared)
    (ha : h.HasAncestor c a) (hv : h.Declares a v) : ((of h limit c).find? v).isSome := by
  have hnontrivial : ∀ {c}, h.HasAncestor c a → isTrivial h c = false := by
    intro c ha
    rw [← Bool.not_eq_true]
    intro hc
    rw [hreg.eq_object_of_hasAncestor hc ha] at hv
    exact hreg.not_declares_object v hv
  induction ha using Relation.TransGen.head_induction_on with
  | single hp =>
    rw [find?_of hac limit (hnontrivial (.single hp)), Option.isSome_or,
      isSome_find?_direct_of_declares hreg hdecl hp hv, Bool.true_or]
  | head hp ha ih =>
    rw [find?_of hac limit (hnontrivial (.head hp ha)), Option.isSome_or, Option.isSome_map,
      List.isSome_findSome?, Bool.or_eq_true, List.any_eq_true]
    exact .inr ⟨_, List.mem_reverse.2 hp, ih⟩

/-! ### What targets mention -/

/-- Whether no variable in a target of the mapping of a class or of an ancestor lies below the
limit. -/
def TargetsWithin (h : HostTypes) (limit : ℕ) (c : ClassId) : Prop :=
  ∀ a, Relation.ReflTransGen (fun c p => p ∈ h.supertypes c) c a →
    ∀ v target, (of h limit a).find? v = some target → target.VarsWithin limit

/-- What is left of a type in which every variable is bound comes from the targets. -/
theorem exists_target_of_mem_vars {σ : Bindings} (hwithin : t.VarsWithin limit)
    (hw : w ∈ (t.substitute σ limit).vars) :
    (w ∈ t.vars ∧ σ w = none) ∨ ∃ v ∈ t.vars, ∃ u, σ v = some u ∧ w ∈ u.vars := by
  obtain ⟨o, ho, rfl⟩ := List.mem_map.1 hw
  have ho : o ∈ occurrences 0 (TypeExpr.substituteAt σ limit 0 t) := ho
  rw [TypeExpr.occurrences_substituteAt, List.mem_flatMap] at ho
  obtain ⟨x, hx, ho⟩ := ho
  rw [if_pos (hwithin x hx)] at ho
  have hmem : x.1 ∈ t.vars := List.mem_map_of_mem hx
  cases hσ : σ x.1 with
  | none =>
    rw [hσ] at ho
    obtain rfl : o = x := by simpa using ho
    exact .inl ⟨hmem, hσ⟩
  | some u =>
    rw [hσ] at ho
    exact .inr ⟨x.1, hmem, u, hσ, TypeExpr.mem_vars_of_mem_occurrences ho⟩

/-- Where the arguments of declared supertypes mention no variable, no target does. -/
theorem occurrences_eq_nil (hac : h.Acyclic)
    (hargs : ∀ c, ∀ e ∈ h.declaredSupertypes c, ∀ t ∈ e.args, occurrences 0 t = [])
    (hv : (of h limit c).find? v = some target) : occurrences 0 target = [] := by
  refine bound_induction (P := fun _ _ target => occurrences 0 target = []) hac ?_ ?_ hv
  · intro c v target hv
    obtain ⟨raw, args, s, he, -, hmem⟩ := exists_applied_of_find?_direct hv
    exact hargs c _ he target hmem
  · intro c v u p _ _ hu
    show occurrences 0 (TypeExpr.substituteAt _ limit 0 u) = []
    rw [TypeExpr.occurrences_substituteAt, hu, List.flatMap_nil]

theorem declares_of_find?_direct (hdecl : h.WellDeclared)
    (hv : (direct h c).find? v = some target) (hw : w ∈ target.vars) : h.Declares c w := by
  obtain ⟨raw, args, s, he, -, hmem⟩ := exists_applied_of_find?_direct hv
  obtain ⟨o, ho, rfl⟩ := List.mem_map.1 hw
  refine hdecl.own c _ he o.1 (List.mem_map.2 ⟨(o.1, o.2 + 1), ?_, rfl⟩)
  refine TypeExpr.mem_occurrences_applied hmem ?_
  rw [TypeExpr.occurrences_add]
  exact List.mem_map_of_mem ho

/-- Targets mention only what the class itself declares. -/
theorem declares_of_find?_of (hac : h.Acyclic) (hreg : h.Regular) (hdecl : h.WellDeclared)
    (hdeep : TargetsWithin h limit c) (hv : (of h limit c).find? v = some target) :
    ∀ w ∈ target.vars, h.Declares c w := by
  refine bound_induction (P := fun c _ target => TargetsWithin h limit c →
    ∀ w ∈ target.vars, h.Declares c w) hac ?_ ?_ hv hdeep
  · exact fun c v target hv _ w hw => declares_of_find?_direct hdecl hv hw
  · intro c v u p hp hu ih hdeep w hw
    have hdeep' : TargetsWithin h limit p := fun a ha => hdeep a (.head hp ha)
    -- a variable left over would be one the supertype declares, but those are bound directly
    rcases exists_target_of_mem_vars (hdeep' p .refl v u hu) hw with ⟨hwu, hnone⟩ | hbound
    · have hsome := isSome_find?_direct_of_declares hreg hdecl hp (ih hdeep' w hwu)
      rw [hnone] at hsome
      cases hsome
    · obtain ⟨x, -, y, hy, hwy⟩ := hbound
      exact declares_of_find?_direct hdecl hy hwy

/-- In the terms of a class, a type mentions only what the class itself declares. -/
theorem declares_of_mem_vars_substitute (hac : h.Acyclic) (hreg : h.Regular)
    (hdecl : h.WellDeclared) (hdeep : TargetsWithin h limit c) (hwithin : t.VarsWithin limit)
    (hvars : ∀ v ∈ t.vars, h.InScope c v) :
    ∀ w ∈ (t.substitute (of h limit c).find? limit).vars, h.Declares c w := by
  intro w hw
  rcases exists_target_of_mem_vars hwithin hw with ⟨hwt, hnone⟩ | ⟨x, -, u, hu, hwu⟩
  · obtain ⟨a, rfl | ha, hdeclares⟩ := hvars w hwt
    · exact hdeclares
    · have hsome : ((of h limit c).find? w).isSome := isSome_find?_of hac hreg hdecl ha hdeclares
      rw [hnone] at hsome
      cases hsome
  · exact declares_of_find?_of hac hreg hdecl hdeep hu w hwu

/-- In a type that mentions only what a class declares, the mapping of the class finds nothing to
replace. -/
theorem substitute?_of_eq_none (hac : h.Acyclic) (hreg : h.Regular)
    (hvars : ∀ v ∈ t.vars, h.Declares c v) :
    t.substitute? (of h limit c).find? limit 0 = none :=
  TypeExpr.substitute?_eq_none fun o ho =>
    find?_of_eq_none hac hreg (hvars o.1 (List.mem_map_of_mem ho)).1

end Mapping

end ScriptSurface
