import ScriptSurface.Proofs.Registry.Coherence

/-!
# Registries only grow

As long as ids have not run out, nothing that is registered is ever replaced: what happens to a
registry adds entries at the end and array classes for further components (`Registry.Grows`,
`Registration.Step.grows`).  The reason is that each id is used once.  All entries have ids that
were handed out (`Registry.Coherent`), and a draft has one under which nothing is registered and
which no other draft has (`Registration.Fresh`).  With that the tables of a registry stay coherent.

Asking for array classes tells nothing about type variables, so their bounds stay as they are
(`Registry.Adds.boundOf`).
-/

namespace ScriptSurface

namespace Registry

variable {r r' r'' : Registry} {c k : ClassId} {e : ClassEntry}

/-! ### Growth -/

/-- One registry has what another has, and further things only after that. -/
structure Grows (r r' : Registry) : Prop where
  /-- Entries come after those that are there. -/
  entries : r.entries.toList <+: r'.entries.toList
  /-- Components keep their array classes. -/
  array? : ∀ {c a}, r.array? c = some a → r'.array? c = some a

theorem Grows.refl (r : Registry) : r.Grows r := ⟨List.prefix_rfl, fun ha => ha⟩

theorem Grows.trans (h : r.Grows r') (h' : r'.Grows r'') : r.Grows r'' :=
  ⟨h.entries.trans h'.entries, fun ha => h'.array? (h.array? ha)⟩

theorem Grows.entryOf? (h : r.Grows r') (he : r.entryOf? c = some e) : r'.entryOf? c = some e := by
  unfold Registry.entryOf? at he ⊢
  rw [← Assoc.mem_toList_iff] at he ⊢
  exact h.entries.subset he

theorem grows_reserve (r : Registry) : r.Grows (reserve r).2 := ⟨List.prefix_rfl, fun ha => ha⟩

theorem grows_register (hc : r.entryOf? c = none) (e : ClassEntry) : r.Grows (r.register c e) := by
  refine ⟨?_, fun ha => ha⟩
  unfold register
  rw [Assoc.toList_put_of_find?_eq_none hc]
  exact List.prefix_append _ _

theorem Enters.grows (h : r.Enters r' c e) : r.Grows r' := by
  refine ⟨⟨[(c, e)], h.toList.symm⟩, fun {k a} ha => ?_⟩
  rw [h.array?, if_neg, ha]
  intro hk
  rw [h.unasked k hk] at ha
  cases ha

/-! ### Vacant ids -/

/-- Whether an id was handed out and nothing is registered under it. -/
def IsVacant (r : Registry) (c : ClassId) : Prop := r.IsHandedOut c ∧ r.entryOf? c = none

theorem IsVacant.enters (h : r.IsVacant k) (henters : r.Enters r' c e) (hne : c ≠ k)
    (hle : r.reserved ≤ r'.reserved) : r'.IsVacant k := by
  refine ⟨h.1.of_le hle, ?_⟩
  rw [henters.entryOf?, if_neg hne]
  exact h.2

/-! ### Bounds -/

theorem boundOf_eq (r : Registry) (v : TypeVar) :
    r.types.boundOf v =
      (r.entryOf? v.owner).bind fun e => (e.typeParams[v.index.toNat]?).map TypeParam.bound := by
  unfold HostTypes.boundOf HostTypes.param?
  show ((((r.entryOf? v.owner).map ClassEntry.typeParams).getD [])[_]?).map _ = _
  cases r.entryOf? v.owner <;> rfl

/-- What is registered under an id says the bounds of the type variables of that class. -/
theorem boundOf_of_entryOf? {r r' : Registry} {c : ClassId} {e : ClassEntry}
    (h : ∀ k, r'.entryOf? k = if c = k then some e else r.entryOf? k) (v : TypeVar) :
    r'.types.boundOf v
      = if v.owner = c then (e.typeParams[v.index.toNat]?).map TypeParam.bound
        else r.types.boundOf v := by
  rw [boundOf_eq, boundOf_eq, h]
  by_cases hv : v.owner = c
  · rw [if_pos hv.symm, if_pos hv]
    rfl
  · rw [if_neg (Ne.symm hv), if_neg hv]

theorem boundOf_eq_none (hc : r.entryOf? c = none) {v : TypeVar} (hv : v.owner = c) :
    r.types.boundOf v = none := by
  rw [boundOf_eq, hv, hc]
  rfl

theorem Grows.boundOf (h : r.Grows r') {v : TypeVar}
    (hv : (r.entryOf? v.owner).isSome = true) : r'.types.boundOf v = r.types.boundOf v := by
  obtain ⟨e, he⟩ := Option.isSome_iff_exists.1 hv
  rw [boundOf_eq, boundOf_eq, he, h.entryOf? he]

/-! ### Array classes -/

/-- What a registry gains by array classes makes no difference to ids that nothing is registered
under, nor to the bounds of type variables. -/
structure Adds (r r' : Registry) : Prop where
  /-- Things are only added. -/
  grows : r.Grows r'
  /-- The tables still agree. -/
  coherent : r'.Coherent
  /-- Nothing is registered under an id that was handed out before. -/
  vacant : ∀ c, r.IsVacant c → r'.IsVacant c
  /-- The bounds of type variables are the same. -/
  boundOf : r'.types.boundOf = r.types.boundOf

theorem Adds.refl (h : r.Coherent) : r.Adds r := ⟨.refl r, h, fun _ hc => hc, rfl⟩

theorem Adds.trans (h : r.Adds r') (h' : r'.Adds r'') : r.Adds r'' :=
  ⟨h.grows.trans h'.grows, h'.coherent, fun c hc => h'.vacant c (h.vacant c hc),
    h'.boundOf.trans h.boundOf⟩

theorem Coherent.adds_arrayOf (h : r.Coherent) {c : ClassId}
    (hids : (Registry.arrayOf c r).2.HasFreshIds) : r.Adds (Registry.arrayOf c r).2 := by
  rcases h.arrayOf_cases hids with ⟨a, -, heq⟩ | ⟨henters, hnew, -⟩
  · rw [heq]
    exact .refl h
  · refine ⟨henters.grows, h.arrayOf hids, fun k hk => ?_, ?_⟩
    · exact hk.enters henters (fun hne => hnew (hne ▸ hk.1)) (r.reserved_arrayOf_le c)
    · funext v
      rw [boundOf_of_entryOf? henters.entryOf?]
      split_ifs with hv
      · -- an array class declares no type parameters, and nothing was known of its id
        exact (boundOf_eq_none henters.new hv).symm
      · rfl

theorem AddsArrays.adds (h : r.AddsArrays r') (hr : r.Coherent) (hids : r'.HasFreshIds) :
    r.Adds r' := by
  induction h with
  | refl => exact .refl hr
  | tail _ hstep ih =>
    obtain ⟨c, rfl⟩ := hstep
    have hadds := ih (hids.of_le (reserved_arrayOf_le _ c))
    exact hadds.trans (hadds.coherent.adds_arrayOf hids)

end Registry

/-! ### Registrations -/

namespace Registration

variable {g g' : Registration}

/-- Each id is used once, and the tables agree. -/
structure Fresh (g : Registration) : Prop where
  /-- The tables agree, and entries have ids that were handed out. -/
  registry : g.registry.Coherent
  /-- Nothing is registered yet under the id of a draft. -/
  drafts : ∀ d ∈ g.drafts, g.registry.IsVacant d.id
  /-- No two drafts have the same id. -/
  nodup : (g.drafts.map Draft.id).Nodup

/-- A commit brings in array classes and then, under the draft's id, a class. -/
theorem Fresh.exists_commit {r : Registry} {before after : List Draft} {d : Draft}
    (hg : Fresh ⟨r, before ++ d :: after⟩) (hkind : d.kind.isArray = false)
    (hids : (d.commit r).2.HasFreshIds) :
    ∃ r' e, r.AddsArrays r' ∧ r'.HasFreshIds ∧ r.Adds r' ∧
      r'.Enters (d.commit r).2 d.id e ∧ e.kind.isArray = false ∧
      (d.commit r).2.reserved = r'.reserved := by
  obtain ⟨r', e, harrays, hcommit, hek, -⟩ := d.exists_commit_eq r
  rw [hcommit] at hids ⊢
  have hids' : r'.HasFreshIds := hids
  have hadds : r.Adds r' := harrays.adds hg.registry hids'
  have hd : r'.IsVacant d.id := hadds.vacant _ (hg.drafts d (by simp))
  have hclass : e.kind.isArray = false := hek ▸ hkind
  exact ⟨r', e, harrays, hids', hadds, Registry.enters_register hd.2 hclass, hclass, rfl⟩

theorem Fresh.commit {r : Registry} {before after : List Draft} {d : Draft}
    (hg : Fresh ⟨r, before ++ d :: after⟩) (hkind : d.kind.isArray = false)
    (hids : (d.commit r).2.HasFreshIds) :
    r.Grows (d.commit r).2 ∧ Fresh ⟨(d.commit r).2, before ++ after⟩ := by
  obtain ⟨r', e, -, -, hadds, henters, -, hreserved⟩ := hg.exists_commit hkind hids
  have hd : r'.IsVacant d.id := hadds.vacant _ (hg.drafts d (by simp))
  have hle : r'.reserved ≤ (d.commit r).2.reserved := hreserved.ge
  refine ⟨hadds.grows.trans henters.grows, hadds.coherent.enters henters (hd.1.of_le hle) hle,
    fun x hx => ?_, ?_⟩
  · have hmem : x ∈ before ++ d :: after := by
      rw [List.mem_append] at hx
      rw [List.mem_append, List.mem_cons]
      tauto
    refine (hadds.vacant _ (hg.drafts x hmem)).enters henters (fun hne => ?_) hle
    -- the ids of the other drafts are not that of the one that is committed
    have hnodup := List.nodup_middle.1 ((List.map_append (f := Draft.id)) ▸ hg.nodup)
    rw [← List.map_append] at hnodup
    exact (List.nodup_cons.1 hnodup).1 (hne ▸ List.mem_map_of_mem hx)
  · exact hg.nodup.sublist (((List.sublist_cons_self d after).append_left before).map Draft.id)

theorem Fresh.adds {r r' : Registry} {drafts : List Draft} (hg : Fresh ⟨r, drafts⟩)
    (h : r.Adds r') : Fresh ⟨r', drafts⟩ :=
  ⟨h.coherent, fun d hd => h.vacant _ (hg.drafts d hd), hg.nodup⟩

theorem Fresh.start {r : Registry} {drafts : List Draft} (hg : Fresh ⟨r, drafts⟩) (kind : Kind)
    (name : String) (hids : (Registry.reserve r).2.HasFreshIds) :
    Fresh ⟨(Draft.start kind name r).2, (Draft.start kind name r).1 :: drafts⟩ := by
  refine ⟨hg.registry.reserve, ?_, ?_⟩
  · intro d hd
    rcases List.mem_cons.1 hd with rfl | hd
    · exact ⟨Registry.isHandedOut_reserve_next hids, hg.registry.entryOf?_next hids⟩
    · exact ⟨(hg.drafts d hd).1.of_le (Nat.le_succ _), (hg.drafts d hd).2⟩
  · rw [List.map_cons, List.nodup_cons]
    refine ⟨fun hmem => ?_, hg.nodup⟩
    obtain ⟨d, hd, hid⟩ := List.mem_map.1 hmem
    have hnext : d.id = r.next := hid
    exact Registry.not_isHandedOut_next hids (hnext ▸ (hg.drafts d hd).1)

/-- Whatever happens, registries only grow, ids stay in single use and the tables agree. -/
theorem Step.grows (h : g.Step g') (hg : g.Fresh) (hsound : g.Sound)
    (hids : g'.registry.HasFreshIds) : g.registry.Grows g'.registry ∧ g'.Fresh := by
  cases h with
  | start r drafts hkind name => exact ⟨r.grows_reserve, hg.start _ name hids⟩
  | @edit r before after d d' hd =>
    refine ⟨.refl r, hg.registry, fun x hx => ?_, ?_⟩
    · simp only [List.mem_append, List.mem_cons] at hx
      rcases hx with hx | rfl | hx
      · exact hg.drafts x (by simp [hx])
      · rw [hd.same.1]
        exact hg.drafts d (by simp)
      · exact hg.drafts x (by simp [hx])
    · have hnodup := hg.nodup
      simp only [List.map_append, List.map_cons] at hnodup ⊢
      rwa [hd.same.1]
  | commit r before after d => exact hg.commit (hsound.drafts d (by simp)).2 hids
  | abandon r before after d =>
    have hsub : (before ++ after).Sublist (before ++ d :: after) :=
      (List.sublist_cons_self d after).append_left before
    exact ⟨.refl r, hg.registry, fun x hx => hg.drafts x (hsub.subset hx),
      hg.nodup.sublist (hsub.map _)⟩
  | arrayOf r drafts component =>
    have hadds := hg.registry.adds_arrayOf hids
    exact ⟨hadds.grows, hg.adds hadds⟩
  | erase r drafts t =>
    have hadds := (Registry.ensures_erase r t r .refl).adds hg.registry hids
    exact ⟨hadds.grows, hg.adds hadds⟩

theorem reserved_le_of_run (h : Relation.ReflTransGen Step g g') :
    g.registry.reserved ≤ g'.registry.reserved := by
  induction h with
  | refl => exact le_rfl
  | tail _ hstep ih => exact ih.trans hstep.reserved_le

theorem fresh_initial : Fresh ⟨Registry.initial, []⟩ :=
  ⟨Registry.coherent_initial, by simp, List.nodup_nil⟩

theorem Reachable.fresh (h : g.Reachable) (hids : g.registry.HasFreshIds) : g.Fresh := by
  induction h with
  | refl => exact fresh_initial
  | tail hrun hstep ih =>
    have hids' := hids.of_le hstep.reserved_le
    exact (hstep.grows (ih hids') (Reachable.sound hrun hids') hids).2

theorem Reachable.grows_of_run (hg : g.Reachable) (h : Relation.ReflTransGen Step g g')
    (hids : g'.registry.HasFreshIds) : g.registry.Grows g'.registry := by
  induction h with
  | refl => exact .refl _
  | tail hrun hstep ih =>
    have hids' := hids.of_le hstep.reserved_le
    have hbefore : Reachable _ := hg.trans hrun
    exact (ih hids').trans (hstep.grows (hbefore.fresh hids') (hbefore.sound hids') hids).1

end Registration

end ScriptSurface
