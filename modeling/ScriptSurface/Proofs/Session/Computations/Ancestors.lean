import ScriptSurface.Proofs.Session.Computations

/-!
# What a session works out along a hierarchy

To describe a class takes the descriptors of the types above it, and to compose its mapping takes
the mappings of its ancestors.  In an acyclic hierarchy the class is not among them, so its own turn
comes once (`Session.computesOnly_describe`, `Session.computesOnly_mapping`).
-/

namespace ScriptSurface

open Descriptor (Key)

namespace Session

variable {env : Environment} {s : Session}

/-! ### Descriptors -/

/-- To describe a class takes the descriptors of the types above it. -/
theorem computesOnly_describeWithin {rank : ClassId → ℕ}
    (hrank : ∀ c, ∀ p ∈ env.types.supertypes c, rank p < rank c) {n : ℕ} {k : ClassId}
    (hn : rank k < n) (hs : s.Knows env []) :
    s.ComputesOnly env (Computation.descriptor '' Key.above env.types (Key.ofClass env.types k))
      (describeWithin env.types n k s).2 := by
  induction n generalizing k s with
  | zero => omega
  | succ n ih =>
    have hrun : Ensures (fun s' => s' = s) (describeWithin env.types (n + 1) k) fun _ s' =>
        s.ComputesOnly env
          (Computation.descriptor '' Key.above env.types (Key.ofClass env.types k)) s' := by
      rw [describeWithin]
      refine .bind_get fun s' hs' => ?_
      subst hs'
      split_ifs with hthere
      · exact .pure fun s' heq => heq ▸ .refl s'
      · rw [Assoc.contains_iff] at hthere
        set key := Key.ofClass env.types k with hkey
        have hobject : key ≠ .object := fun heq => hthere (heq ▸ hs.1.object)
        have harray : key ≠ .array := fun heq => hthere (heq ▸ hs.1.array)
        have hcls : key.cls = k := Key.cls_ofClass hobject harray
        -- what supertypes take is above the class, which is not above itself
        set above : Set Computation := Computation.descriptor ''
          {j | Relation.TransGen (fun a b => b ∈ Key.supertypes env.types a) key j}
        have hparents : ∀ p ∈ env.types.supertypes k, Ensures
            (fun s₁ : Session => s₁.Knows env [] ∧ s'.ComputesOnly env above s₁)
            (describeWithin env.types n p) fun key s₁ => key = Key.ofClass env.types p ∧
              s₁.Knows env [] ∧ s'.ComputesOnly env above s₁ := by
          intro p hp s₁ hs₁
          have hlt : rank p < n := (hrank k p hp).trans_le (Nat.lt_succ_iff.1 hn)
          have hstep : Key.ofClass env.types p ∈ Key.supertypes env.types key := by
            rw [Key.supertypes_of_ne hobject harray, hcls]
            exact List.mem_map_of_mem hp
          obtain ⟨hanswer, hknows⟩ := ensures_describeWithin hrank hlt [] s₁ hs₁.1
          refine ⟨hanswer, hknows.mono (List.nil_subset _), hs₁.2.trans ?_⟩
          refine (ih hlt hs₁.1).mono ?_
          rintro _ ⟨j, hj, rfl⟩
          exact ⟨j, .head' hstep hj, rfl⟩
        have hself : Computation.descriptor key ∉ above := by
          rintro ⟨j, hj, heq⟩
          obtain rfl := Computation.descriptor.inj heq
          exact acyclic_of_measure (Key.measure rank)
            (fun _ _ hk => Key.measure_lt_of_mem_supertypes hrank hk) _ hj
        have hparent := Ensures.optionMapM_eq (o := env.types.superclass k) fun p hp =>
          hparents p (by simp [HostTypes.supertypes, Option.mem_def.1 hp])
        have hinterfaces := Ensures.mapM_eq (l := env.types.interfaces k) fun p hp =>
          hparents p (by simp [HostTypes.supertypes, hp])
        refine .bind (.of_state hparent ⟨hs, .refl s'⟩) fun parent => .of_and fun _ => ?_
        refine .bind hinterfaces fun interfaces => .of_and fun hlinks s₁ hs₁ => ?_
        refine (hs₁.2.store ?_ ?_ hself hthere
          (has_putNew_descriptors s₁ key _ (s₁.events ++ [_])) ?_ id).1
        · exact Set.image_mono fun j hj => hj.to_reflTransGen
        · exact ⟨key, .refl, rfl⟩
        · rw [Computation.report?, hcls, ← List.length_map (Key.ofClass env.types), ← hlinks]
          exact reports_append s₁ rfl
    exact hrun s rfl

/-! ### Mappings -/

theorem size_share_ofTable (t : Assoc TypeVar TypeExpr) :
    (Mapping.ofTable t).share.size = t.size := by
  unfold Mapping.ofTable Assoc.size
  split <;> simp_all [Mapping.share, Mapping.shared, Mapping.size, Assoc.size]

/-- To compose the mapping of a class takes the mappings of its ancestors. -/
theorem computesOnly_mappingWithin (hac : env.types.Acyclic) {rank : ClassId → ℕ}
    (hrank : ∀ c, ∀ p ∈ env.types.supertypes c, rank p < rank c) {n : ℕ} {k : ClassId}
    (hn : rank k < n) (hs : s.Knows env []) :
    s.ComputesOnly env (Computation.mapping '' {j | j = k ∨ env.types.HasAncestor k j})
        (mappingWithin env.types env.limit n k s).2 ∧
      (Mapping.isTrivial env.types k = false →
        (mappingWithin env.types env.limit n k s).2.Has (.mapping k)) := by
  induction n generalizing k s with
  | zero => omega
  | succ n ih =>
    have hrun : Ensures (fun s' => s' = s) (mappingWithin env.types env.limit (n + 1) k) fun _ s' =>
        s.ComputesOnly env (Computation.mapping '' {j | j = k ∨ env.types.HasAncestor k j}) s' ∧
          (Mapping.isTrivial env.types k = false → s'.Has (.mapping k)) := by
      have hof := Mapping.of_eq hac env.limit k
      rw [mappingWithin]
      split_ifs at hof ⊢ with htrivial
      · refine .pure fun s' heq => ⟨heq ▸ .refl s', fun hnot => ?_⟩
        rw [htrivial] at hnot
        cases hnot
      · refine .bind_get fun s' hs' => ?_
        subst hs'
        split
        · next m hm =>
          refine .pure fun s' heq => ?_
          subst heq
          exact ⟨.refl s', fun _ => Assoc.mem_keys_of_find? hm⟩
        · next hnone =>
          have hnew : ¬s'.Has (.mapping k) := fun hhas =>
            (Assoc.exists_find?_of_mem_keys hhas).elim hnone
          set above : Set Computation := Computation.mapping '' {j | env.types.HasAncestor k j}
          have hself : Computation.mapping k ∉ above := by
            rintro ⟨j, hj, heq⟩
            obtain rfl := Computation.mapping.inj heq
            exact hac j hj
          have hparents : ∀ p ∈ env.types.supertypes k, Ensures
              (fun s₁ : Session => s₁.Knows env [] ∧ s'.ComputesOnly env above s₁)
              (do
                let m ← mappingWithin env.types env.limit n p
                noteTooDeep env.limit (m.beyond env.limit)
                return m)
              fun m s₁ => m = Mapping.of env.types env.limit p ∧ s₁.Knows env [] ∧
                s'.ComputesOnly env above s₁ := by
            intro p hp s₁ hs₁
            have hlt : rank p < n := (hrank k p hp).trans_le (Nat.lt_succ_iff.1 hn)
            have hup : Computation.mapping '' {j | j = p ∨ env.types.HasAncestor p j} ⊆ above := by
              rintro _ ⟨j, rfl | hj, rfl⟩
              · exact ⟨j, .single hp, rfl⟩
              · exact ⟨j, .head hp hj, rfl⟩
            obtain ⟨hanswer, hknows⟩ := ensures_mappingWithin hac hrank hlt s₁ hs₁.1
            have honly := (ih hlt hs₁.1).1.mono hup
            exact ⟨hanswer, ensures_noteTooDeep env.limit _ _ hknows,
              hs₁.2.trans (honly.trans (computesOnly_noteTooDeep env.limit _ _))⟩
          refine .bind (.of_state (.mapM_eq hparents) ⟨hs, .refl s'⟩) fun inherited =>
            .of_and fun heq s₁ hs₁ => ?_
          rw [← heq] at hof
          refine (hs₁.2.store ?_ ?_ hself hnew
            (has_put_mappings s₁ k _ (s₁.events ++ [_])) ?_ id).imp id fun hhas _ => hhas
          · exact Set.image_mono fun j => .inr
          · exact ⟨k, .inl rfl, rfl⟩
          · rw [Computation.report?, hof, size_share_ofTable]
            exact reports_append s₁ rfl
    exact hrun s rfl

theorem computesOnly_describe (hac : env.types.Acyclic) (k : ClassId) (hs : s.Knows env []) :
    s.ComputesOnly env (Computation.descriptor '' Key.above env.types (Key.ofClass env.types k))
      (describe env.types k s).2 := by
  obtain ⟨rank, hrank⟩ := hac.exists_rank
  exact computesOnly_describeWithin (fun c => (hrank c).2) (hrank k).1 hs

theorem computesOnly_mapping (hac : env.types.Acyclic) (k : ClassId) (hs : s.Knows env []) :
    s.ComputesOnly env (Computation.mapping '' {j | j = k ∨ env.types.HasAncestor k j})
        (mapping env.types env.limit k s).2 ∧
      (Mapping.isTrivial env.types k = false →
        (mapping env.types env.limit k s).2.Has (.mapping k)) := by
  obtain ⟨rank, hrank⟩ := hac.exists_rank
  exact computesOnly_mappingWithin hac (fun c => (hrank c).2) (hrank k).1 hs

end Session

end ScriptSurface
