import ScriptSurface.Proofs.Registry.Entries

/-!
# The names of array classes

An array class is registered under the name that its component has at that time, and keeps it
(`Registry.NamesArrays`).  So it is named after its component if the component was registered before
it (`Registry.RegisteredBefore`).  A component that is registered only afterwards had no name yet,
and the array class stays named after what stood for one: `Registration.name_array_iff`.

That is how it goes with arrays of a class in the declaration of the class itself, as in
`nodeDraft`: the declared types are erased before the class is registered
(`Draft.not_registeredBefore_commit`).
-/

namespace ScriptSurface

namespace Registry

variable {r r' : Registry} {a c x : ClassId} {e : ClassEntry}

/-! ### The order of registration -/

/-- Whether a class was registered before another. -/
def RegisteredBefore (r : Registry) (c a : ClassId) : Prop := [c, a].Sublist r.entries.keys

theorem RegisteredBefore.isSome (h : r.RegisteredBefore c a) : (r.entryOf? c).isSome = true :=
  (Assoc.isSome_find?_iff _ _).2 (h.subset List.mem_cons_self)

/-- What comes in later makes no difference to the classes that are there. -/
theorem Grows.registeredBefore_iff (h : r.Grows r') (ha : (r.entryOf? a).isSome = true) :
    r'.RegisteredBefore c a ↔ r.RegisteredBefore c a := by
  obtain ⟨more, hmore⟩ := h.entries
  have hkeys : r'.entries.keys = r.entries.keys ++ more.map Prod.fst := by
    unfold Assoc.keys
    rw [← hmore, List.map_append]
  have hold : a ∈ r.entries.keys := (Assoc.isSome_find?_iff _ _).1 ha
  unfold RegisteredBefore
  rw [hkeys]
  constructor
  · intro hsub
    obtain ⟨l, m, hlm, hl, hm⟩ := List.sublist_append_iff.1 hsub
    rcases List.eq_nil_or_concat m with rfl | ⟨m', b, rfl⟩
    · rw [List.append_nil] at hlm
      rwa [hlm]
    · -- the second class would be among the later ones, and so occur twice
      rw [List.concat_eq_append] at hlm hm
      rw [← List.append_assoc] at hlm
      have hlm : [c] ++ [a] = (l ++ m') ++ [b] := hlm
      obtain rfl : a = b := by simpa using (List.append_inj' hlm rfl).2
      have hnodup := r'.entries.keys_nodup
      rw [hkeys, List.nodup_append] at hnodup
      exact absurd rfl (hnodup.2.2 _ hold _ (hm.subset (by simp)))
  · exact fun hsub => hsub.trans (List.sublist_append_left _ _)

/-- What comes in was registered after all that is there. -/
theorem Enters.registeredBefore_iff (h : r.Enters r' x e) :
    r'.RegisteredBefore c x ↔ (r.entryOf? c).isSome = true := by
  unfold RegisteredBefore
  rw [h.keys]
  constructor
  · intro hsub
    have hcx : c ≠ x := by
      rintro rfl
      have := hsub.nodup (h.keys ▸ r'.entries.keys_nodup)
      simp at this
    have hc : c ∈ r.entries.keys ++ [x] := hsub.subset List.mem_cons_self
    rw [List.mem_append, List.mem_singleton, or_iff_left hcx] at hc
    exact (Assoc.isSome_find?_iff _ _).2 hc
  · intro hc
    have hmem : c ∈ r.entries.keys := (Assoc.isSome_find?_iff _ _).1 hc
    exact (List.singleton_sublist.2 hmem).append (.refl [x])

/-! ### The names that array classes have -/

/-- Array classes are named after what their components were called when they were registered. -/
def NamesArrays (r : Registry) : Prop :=
  ∀ a e c, r.entryOf? a = some e → e.kind = .array c →
    (r.RegisteredBefore c a → e.name = r.name c ++ "[]") ∧
    (¬r.RegisteredBefore c a → e.name = placeholder c ++ "[]")

theorem namesArrays_initial : initial.NamesArrays := by
  intro a e c he hkind
  have hnamed : (∃ e, initial.entryOf? a = some e ∧ e.name = initial.name c ++ "[]") ∧
      [c, a].Sublist initial.entries.keys := by
    rcases eq_of_kind_initial ((kind_of_entryOf? he).trans hkind) with ⟨rfl, rfl⟩ | ⟨rfl, rfl⟩
    · exact ⟨⟨_, rfl, by decide +kernel⟩, by decide +kernel⟩
    · exact ⟨⟨_, rfl, by decide +kernel⟩, by decide +kernel⟩
  obtain ⟨⟨e', he', hname⟩, hbefore⟩ := hnamed
  obtain rfl := Option.some.inj (he.symm.trans he')
  exact ⟨fun _ => hname, fun hnot => absurd hbefore hnot⟩

/-- An entry that is named so, if it is one of an array class, keeps the names of array classes what
they are. -/
theorem NamesArrays.enters (h : r.NamesArrays) (henters : r.Enters r' x e)
    (he : ∀ c, e.kind = .array c → e.name = r.name c ++ "[]") : r'.NamesArrays := by
  intro a e' c he' hkind
  rw [henters.entryOf?] at he'
  split_ifs at he' with hxa
  · -- the new array class
    obtain rfl := Option.some.inj he'
    subst hxa
    rw [henters.registeredBefore_iff, he c hkind]
    refine ⟨fun hc => by rw [henters.grows.name hc], fun hc => ?_⟩
    rw [name_of_entryOf?_eq_none (Option.not_isSome_iff_eq_none.1 hc)]
  · -- one that was there before
    have ha : (r.entryOf? a).isSome = true := by rw [he']; rfl
    rw [henters.grows.registeredBefore_iff ha]
    obtain ⟨hbefore, hnot⟩ := h a e' c he' hkind
    refine ⟨fun hc => ?_, hnot⟩
    rw [henters.grows.name hc.isSome]
    exact hbefore hc

end Registry

namespace Registration

variable {g g' : Registration} {a c : ClassId}

theorem Reachable.namesArrays (hg : g.Reachable) (hids : g.registry.HasFreshIds) :
    g.registry.NamesArrays := by
  obtain ⟨n, hn⟩ := hg.exists_reachedBy
  refine hn.entries_induction (P := fun _ => Registry.NamesArrays) Registry.namesArrays_initial
    (fun h => h) (fun h henters => h.enters henters ?_)
    (fun h hclass henters => h.enters henters ?_) hids
  · rintro c' hkind
    obtain rfl := Kind.array.inj hkind
    rfl
  · intro c hkind
    exact absurd hkind (Registry.ne_array_of_isArray_eq_false hclass c)

end Registration

/-- When a draft is committed, its class comes after all array classes of it that are there. -/
theorem Draft.not_registeredBefore_commit {r : Registry} {before after : List Draft} {d : Draft}
    {a : ClassId} (hg : Registration.Reachable ⟨r, before ++ d :: after⟩)
    (hids : (d.commit r).2.HasFreshIds) (ha : (d.commit r).2.types.kind a = .array d.id) :
    ¬(d.commit r).2.RegisteredBefore d.id a := by
  have hids' := hids.of_le (r.reserved_commit_le d)
  have hfresh := hg.fresh hids'
  have hclass := ((hg.sound hids').drafts d (by simp)).2
  obtain ⟨r', e, -, -, -, henters, hkind, -⟩ := hfresh.exists_commit hclass hids
  obtain ⟨e', he', hkind'⟩ := Registry.exists_entry_of_kind ha
  rw [henters.entryOf?] at he'
  split_ifs at he' with hda
  · -- the class itself is no array class
    obtain rfl := Option.some.inj he'
    exact absurd hkind' (Registry.ne_array_of_isArray_eq_false hkind d.id)
  · rw [henters.grows.registeredBefore_iff (by rw [he']; rfl)]
    intro hbefore
    have hsome := hbefore.isSome
    rw [henters.new] at hsome
    cases hsome

/-! ### Arrays of a class in its own declaration -/

/-- A class `Node` with a field `children` that holds an array of nodes, under way. -/
def nodeDraft : Draft :=
  (Draft.start .concrete "Node" Registry.initial).1.addField
    (.declare "children" (.array (.plain 16 .anonymous) .anonymous) 0)

/-- The registration with `Node` under id 16 and its array class under id 17. -/
def nodes : Registration := ⟨(nodeDraft.commit (Registry.reserve Registry.initial).2).2, []⟩

theorem reachable_nodeDraft :
    Registration.Reachable ⟨(Registry.reserve Registry.initial).2, [] ++ nodeDraft :: []⟩ :=
  ((Relation.ReflTransGen.refl (r := Registration.Step)).tail
    (.start Registry.initial [] (.inl rfl) "Node")).tail (.edit _ [] [] (.addField _ _))

theorem reachable_nodes : nodes.Reachable :=
  reachable_nodeDraft.tail (.commit _ [] [] nodeDraft)

theorem hasFreshIds_nodes : nodes.registry.HasFreshIds := by
  show 16 + nodes.registry.reserved ≤ ClassId.count
  decide +kernel

theorem kind_nodes : nodes.registry.types.kind 17 = .array 16 := by decide +kernel

namespace Registration

/-- **The names of array classes.**  At any time after both are registered, an array class is named
after its component exactly if the component was registered before it, or happens to be called what
classes are called that are not registered.  Otherwise the array class is named after that. -/
theorem name_array_iff {g g' : Registration} (hg : g.Reachable)
    (hrun : Relation.ReflTransGen Step g g') (hids : g'.registry.HasFreshIds) {a c : ClassId}
    (ha : g.registry.types.kind a = .array c) (hc : (g.registry.entryOf? c).isSome = true) :
    (g'.registry.name a = g'.registry.name c ++ "[]" ↔
      g.registry.RegisteredBefore c a ∨ g.registry.name c = Registry.placeholder c) ∧
    (¬g.registry.RegisteredBefore c a →
      g'.registry.name a = Registry.placeholder c ++ "[]") := by
  have hids' : g.registry.HasFreshIds := hids.of_le (reserved_le_of_run hrun)
  have hgrows := hg.grows_of_run hrun hids
  obtain ⟨e, he, hkind⟩ := Registry.exists_entry_of_kind ha
  obtain ⟨hbefore, hnot⟩ := hg.namesArrays hids' a e c he hkind
  rw [hgrows.name (by rw [he]; rfl), hgrows.name hc, Registry.name_of_entryOf? he]
  refine ⟨?_, hnot⟩
  by_cases horder : g.registry.RegisteredBefore c a
  · exact iff_of_true (hbefore horder) (.inl horder)
  · rw [hnot horder, String.append_left_inj, or_iff_right horder, eq_comm]

/-- The array class of `Node` keeps the name it got before `Node` had one. -/
theorem name_array_iff_nodes :
    nodes.Reachable ∧ nodes.registry.HasFreshIds ∧
      nodes.registry.types.kind 17 = .array 16 ∧
      (nodes.registry.entryOf? 16).isSome = true ∧
      ¬nodes.registry.RegisteredBefore 16 17 ∧
      ∀ g : Registration, Relation.ReflTransGen Step nodes g → g.registry.HasFreshIds →
        g.registry.name 17 = Registry.placeholder 16 ++ "[]" ∧
          g.registry.name 17 ≠ g.registry.name 16 ++ "[]" := by
  have hsome : (nodes.registry.entryOf? 16).isSome = true := by decide +kernel
  have horder : ¬nodes.registry.RegisteredBefore 16 17 :=
    Draft.not_registeredBefore_commit reachable_nodeDraft hasFreshIds_nodes kind_nodes
  refine ⟨reachable_nodes, hasFreshIds_nodes, kind_nodes, hsome, horder, fun g hrun hids => ?_⟩
  obtain ⟨hiff, hnot⟩ := name_array_iff reachable_nodes hrun hids kind_nodes hsome
  refine ⟨hnot horder, fun hname => ?_⟩
  rcases hiff.1 hname with hbefore | hplaceholder
  · exact horder hbefore
  · exact absurd hplaceholder (by decide +kernel)

/-- Array classes are not always named after their components: that of `Node` is not. -/
theorem not_name_array :
    ¬∀ g : Registration, g.Reachable → g.registry.HasFreshIds → ∀ a c,
      g.registry.types.kind a = .array c → (g.registry.entryOf? c).isSome = true →
        g.registry.name a = g.registry.name c ++ "[]" := by
  intro h
  have hname := h nodes reachable_nodes hasFreshIds_nodes 17 16 kind_nodes (by decide +kernel)
  exact absurd hname (by decide +kernel)

end Registration

end ScriptSurface
