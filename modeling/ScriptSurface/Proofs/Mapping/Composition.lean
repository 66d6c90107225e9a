import ScriptSurface.Proofs.Mapping.Ancestors

/-!
# Mappings one after the other

A type in the terms of a class is the type in the terms of its superclass with the class's own
direct bindings applied (`Mapping.bare_substitute_of`): the mapping of the class is the two
substitutions in one.  A variable the superclass declares is left alone by the superclass's mapping
and bound directly.  Any other is bound by the superclass's mapping, and since the superclass is the
last of the supertypes, it is that target which the mapping of the class has with the direct
bindings applied.  The target stands deeper in the type than when it was flattened; that makes no
difference as long as its variables lie within the limit in both places.
-/

namespace ScriptSurface.Mapping

open TypeExpr (occurrences replace)

variable {h : HostTypes} {limit : ℕ} {c p : ClassId} {e t target : TypeExpr} {v : TypeVar}

/-- The superclass's mapping comes first among those of the supertypes. -/
theorem find?_of_of_superclass (hac : h.Acyclic) (hp : h.superclass c = some p)
    (hc : isTrivial h c = false) (hv : (of h limit p).find? v = some target)
    (hdirect : (direct h c).find? v = none) :
    (of h limit c).find? v = some (target.substitute (direct h c).find? limit) := by
  have hlast : (h.supertypes c).reverse = p :: (h.interfaces c).reverse := by
    rw [HostTypes.supertypes, hp, Option.toList_some, List.reverse_append]
    rfl
  rw [find?_of hac limit hc, hdirect, Option.none_or, hlast, List.findSome?_cons, hv]
  rfl

/-- What a superclass named in full declares is bound directly. -/
theorem isSome_find?_direct_of_superclass (he : h.genericSuperclass c = some e)
    (hnames : h.Names p e) (hv : h.Declares p v) : ((direct h c).find? v).isSome := by
  obtain ⟨args, s, rfl, hargs⟩ := hnames.exists_applied hv
  have hmem : .applied p args s ∈ h.declaredSupertypes c := by
    rw [HostTypes.declaredSupertypes, he]
    exact List.mem_cons_self
  exact isSome_find?_direct hmem hargs hv

/-- Above a class with the empty mapping there is nothing to declare or bind a variable. -/
theorem isTrivial_eq_false_of_superclass (hac : h.Acyclic) (hreg : h.Regular)
    (hp : h.superclass c = some p)
    (hv : h.Declares p v ∨ ((of h limit p).find? v).isSome) : isTrivial h c = false := by
  rw [← Bool.not_eq_true]
  intro hc
  have hpc : p ∈ h.supertypes c := by
    rw [HostTypes.supertypes, hp]
    exact List.mem_append_right _ List.mem_cons_self
  obtain rfl := hreg.eq_object c hc p hpc
  rcases hv with hdeclares | hbound
  · exact hreg.not_declares_object v hdeclares
  · rw [find?_of_trivial hac limit (by simp [isTrivial])] at hbound
    cases hbound

/-- In the terms of a class, a variable of a type is what the direct bindings make of it in the
terms of the superclass. -/
theorem bare_replace_var_of (hac : h.Acyclic) (hreg : h.Regular)
    (he : h.genericSuperclass c = some e) (hnames : h.Names p e)
    (hvars : h.Declares p v ∨ ((of h limit p).find? v).isSome)
    (hdirect : ((of h limit p).find? v).isSome → (direct h c).find? v = none) {d : ℕ}
    (hle : d ≤ limit)
    (hdeep : ∀ u, (of h limit p).find? v = some u → ∀ o ∈ occurrences d u, o.2 ≤ limit)
    (s : Stamp) :
    (replace (of h limit c).find? limit d (.var v s)).bare
      = (replace (direct h c).find? limit d
          (replace (of h limit p).find? limit d (.var v s))).bare := by
  have hsuper := hreg.superclass_eq he hnames
  have hnontrivial := isTrivial_eq_false_of_superclass hac hreg hsuper hvars
  cases hpv : (of h limit p).find? v with
  | none =>
    -- the superclass declares the variable, so the class binds it directly
    have hdeclares : h.Declares p v := by
      simpa [hpv] using hvars
    obtain ⟨u, hu⟩ := Option.isSome_iff_exists.1
      (isSome_find?_direct_of_superclass he hnames hdeclares)
    have hcv : (of h limit c).find? v = some u := by
      rw [find?_of hac limit hnontrivial, hu]
      rfl
    simp only [replace, if_pos hle, hpv, hcv, hu, Option.getD_none, Option.getD_some]
  | some u =>
    -- the target was flattened at depth zero and stands at depth `d` here
    have hcv := find?_of_of_superclass hac hsuper hnontrivial hpv (hdirect (by rw [hpv]; rfl))
    simp only [replace, if_pos hle, hpv, hcv, Option.getD_some]
    rw [← TypeExpr.replace_eq_of_le (Nat.zero_le d) (hdeep u hpv)]
    exact TypeExpr.bare_substituteAt _ limit u 0

/-- In the terms of a class, a type is what the direct bindings make of it in the terms of the
superclass. -/
theorem bare_substitute_of (hac : h.Acyclic) (hreg : h.Regular)
    (he : h.genericSuperclass c = some e) (hnames : h.Names p e)
    (hvars : ∀ v ∈ t.vars, h.Declares p v ∨ ((of h limit p).find? v).isSome)
    (hdirect : ∀ v ∈ t.vars, ((of h limit p).find? v).isSome → (direct h c).find? v = none)
    (hwithin : t.VarsWithin limit)
    (hwithin' : (t.substitute (of h limit p).find? limit).VarsWithin limit) :
    (t.substitute (of h limit c).find? limit).bare
      = ((t.substitute (of h limit p).find? limit).substitute (direct h c).find? limit).bare := by
  have hstep : ∀ o ∈ occurrences 0 t, ∀ s,
      (replace (of h limit c).find? limit o.2 (.var o.1 s)).bare
        = (replace (direct h c).find? limit o.2
            (replace (of h limit p).find? limit o.2 (.var o.1 s))).bare := by
    intro o ho s
    have hv : o.1 ∈ t.vars := List.mem_map_of_mem ho
    have hle := hwithin o ho
    refine bare_replace_var_of hac hreg he hnames (hvars _ hv) (hdirect _ hv) hle ?_ s
    intro u hu x hx
    -- the variables of the target are found in the type in the terms of the superclass
    refine hwithin' x ?_
    show x ∈ occurrences 0 (TypeExpr.substituteAt _ limit 0 t)
    rw [TypeExpr.occurrences_substituteAt]
    refine List.mem_flatMap.2 ⟨o, ho, ?_⟩
    rw [if_pos hle, hu]
    exact hx
  calc (t.substitute (of h limit c).find? limit).bare
      = (replace (of h limit c).find? limit 0 t).bare := TypeExpr.bare_substituteAt _ limit t 0
    _ = (replace (direct h c).find? limit 0 (replace (of h limit p).find? limit 0 t)).bare :=
        TypeExpr.bare_replace_replace hstep
    _ = (replace (direct h c).find? limit 0 (t.substitute (of h limit p).find? limit)).bare := by
        rw [← TypeExpr.bare_replace_bare _ limit (t.substitute _ limit),
          ← TypeExpr.bare_replace_bare _ limit (replace _ limit 0 t)]
        congr 2
        exact (TypeExpr.bare_substituteAt _ limit t 0).symm
    _ = _ := (TypeExpr.bare_substituteAt _ limit _ 0).symm

end ScriptSurface.Mapping
