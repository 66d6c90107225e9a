import ScriptSurface.Proofs.Registry.ArrayNames

/-!
# The tables of a registry

A registry answers for ids, array classes, names and numbers of classes out of three tables and a
counter of ids.  This module says what the answers have to do with what has been done to it.

* Each id that is handed out is a new one (`Registry.handedOut`), and entries are never changed.
* A component has one array class, which is what asking for it answers ever after
  (`Registration.Reachable.array?_of_run`).
* A name stands for the class that was registered last under it
  (`Registry.Coherent.lookup_eq_some_iff`).
* Apart from the types every host provides, each class was committed or is an array class that was
  asked for (`Registration.ReachedBy.counts`).

`Registration.ReachedBy.tables` puts this together.
-/

namespace ScriptSurface

namespace Registry

variable {r r' : Registry} {c x : ClassId} {e : ClassEntry} {name : String}

/-! ### Ids -/

/-- The ids handed out so far, in order. -/
def handedOut (r : Registry) : List ClassId :=
  (List.range r.reserved).map fun i => ⟨UInt32.ofNat (ClassId.firstUser.index.toNat + i)⟩

/-- What is handed out is added to what was handed out. -/
theorem handedOut_reserve (r : Registry) :
    (reserve r).2.handedOut = r.handedOut ++ [(reserve r).1] := by
  have hreserved : (reserve r).2.reserved = r.reserved + 1 := rfl
  unfold handedOut
  rw [hreserved, List.range_succ, List.map_append]
  rfl

theorem handedOut_prefix (h : r.reserved ≤ r'.reserved) : r.handedOut <+: r'.handedOut := by
  obtain ⟨k, hk⟩ := Nat.exists_eq_add_of_le h
  unfold handedOut
  rw [hk, List.range_add, List.map_append]
  exact List.prefix_append _ _

theorem toNat_of_mem_range (hids : r.HasFreshIds) {i : ℕ} (hi : i < r.reserved) :
    (UInt32.ofNat (ClassId.firstUser.index.toNat + i)).toNat
      = ClassId.firstUser.index.toNat + i := by
  refine UInt32.toNat_ofNat_of_lt' (lt_of_lt_of_le ?_ hids)
  omega

/-- No id is handed out twice. -/
theorem nodup_handedOut (hids : r.HasFreshIds) : r.handedOut.Nodup := by
  refine List.Nodup.map_on (fun i hi j hj hij => ?_) List.nodup_range
  rw [List.mem_range] at hi hj
  have heq := congrArg (fun c : ClassId => c.index.toNat) hij
  simp only [toNat_of_mem_range hids hi, toNat_of_mem_range hids hj] at heq
  omega

/-- What is handed out is not reserved for the types every host provides. -/
theorem isReserved_of_mem_handedOut (hids : r.HasFreshIds) (hc : c ∈ r.handedOut) :
    c.isReserved = false := by
  obtain ⟨i, hi, rfl⟩ := List.mem_map.1 hc
  rw [ClassId.isReserved, decide_eq_false_iff_not, UInt32.not_lt, UInt32.le_iff_toNat_le,
    toNat_of_mem_range hids (List.mem_range.1 hi)]
  exact Nat.le_add_right _ _

theorem IsHandedOut.mem_handedOut (h : r.IsHandedOut c) (hc : c.isReserved = false) :
    c ∈ r.handedOut := by
  rw [ClassId.isReserved, decide_eq_false_iff_not, UInt32.not_lt, UInt32.le_iff_toNat_le] at hc
  unfold IsHandedOut at h
  refine List.mem_map.2 ⟨c.index.toNat - ClassId.firstUser.index.toNat, ?_, ?_⟩
  · rw [List.mem_range]
    omega
  · rw [Nat.add_sub_cancel' hc, UInt32.ofNat_toNat]

theorem next_notMem_handedOut (hids : (reserve r).2.HasFreshIds) : r.next ∉ r.handedOut := by
  have hnodup := nodup_handedOut hids
  rw [handedOut_reserve, List.nodup_append] at hnodup
  exact fun hmem => hnodup.2.2 _ hmem _ (List.mem_singleton_self _) rfl

/-! ### Numbers of classes -/

/-- The components whose array classes were asked for, which those of the types every host provides
were not. -/
def arrayComponents (r : Registry) : Set ClassId :=
  {c | c ≠ ClassId.object ∧ c ≠ ClassId.string ∧ (r.array? c).isSome = true}

/-- Two array classes are there from the start, and all other classes were committed or are array
classes that were asked for. -/
structure Counts (commits : ℕ) (r : Registry) : Prop where
  /-- The universal base type has an array class. -/
  object : (r.array? ClassId.object).isSome = true
  /-- Text has an array class. -/
  string : (r.array? ClassId.string).isSome = true
  /-- The number of classes. -/
  size : r.size = builtins.length + commits + r.arrayComponents.ncard

theorem counts_initial : initial.Counts 0 := by
  have hnone : initial.arrayComponents = ∅ := by
    refine Set.eq_empty_of_forall_notMem fun c hc => ?_
    obtain ⟨hobject, hstring, hsome⟩ := hc
    obtain ⟨a, ha⟩ := Option.isSome_iff_exists.1 hsome
    rcases eq_of_kind_initial ((coherent_initial.arrays c a).1 ha) with ⟨hc, -⟩ | ⟨hc, -⟩
    · exact hobject hc
    · exact hstring hc
  refine ⟨by decide +kernel, by decide +kernel, ?_⟩
  rw [hnone, Set.ncard_empty]
  decide +kernel

theorem Counts.enters_array {commits : ℕ} (h : r.Counts commits)
    (henters : r.Enters r' x (.array c name)) : r'.Counts commits := by
  have harray := henters.array?_of_array
  have hnone : r.array? c = none := henters.unasked c rfl
  have hne : ∀ k, (r.array? k).isSome = true → c ≠ k := by
    rintro k hk rfl
    rw [hnone] at hk
    cases hk
  -- the two components that are left out have their array classes from the start
  have hinsert : r'.arrayComponents = insert c r.arrayComponents := by
    ext k
    by_cases hk : c = k
    · subst hk
      simp [arrayComponents, harray, hne _ h.object, hne _ h.string]
    · simp [arrayComponents, harray, hk, Ne.symm hk]
  have hnew : c ∉ r.arrayComponents := fun hmem => hne c hmem.2.2 rfl
  refine ⟨?_, ?_, ?_⟩
  · rw [harray, if_neg (hne _ h.object)]
    exact h.object
  · rw [harray, if_neg (hne _ h.string)]
    exact h.string
  · rw [henters.size, hinsert, Set.ncard_insert_of_notMem hnew (Set.toFinite _), h.size]
    omega

theorem Counts.enters_class {commits : ℕ} (h : r.Counts commits) (he : e.kind.isArray = false)
    (henters : r.Enters r' x e) : r'.Counts (commits + 1) := by
  have harray := henters.array?_of_class he
  have hsame : r'.arrayComponents = r.arrayComponents := by
    unfold arrayComponents
    rw [harray]
  refine ⟨?_, ?_, ?_⟩
  · rw [harray]
    exact h.object
  · rw [harray]
    exact h.string
  · rw [henters.size, hsame, h.size]
    omega

end Registry

namespace Registration

variable {g g' : Registration} {a c : ClassId} {n : ℕ}

/-- The array class that is asked for is found for its component ever after. -/
theorem Reachable.array?_of_run (hg : g.Reachable)
    (hnext : (Registry.arrayOf c g.registry).2.HasFreshIds)
    (hrun : Relation.ReflTransGen Step ⟨(Registry.arrayOf c g.registry).2, g.drafts⟩ g')
    (hids : g'.registry.HasFreshIds) :
    g'.registry.array? c = some (Registry.arrayOf c g.registry).1 := by
  have hfresh := hg.fresh (hnext.of_le (g.registry.reserved_arrayOf_le c))
  have hasked : Reachable ⟨(Registry.arrayOf c g.registry).2, g.drafts⟩ :=
    Relation.ReflTransGen.tail hg (.arrayOf g.registry g.drafts c)
  exact (hasked.grows_of_run hrun hids).array? (hfresh.registry.array?_arrayOf hnext)

/-- Above an array class is the universal base type. -/
theorem Reachable.superclass_of_array? (hg : g.Reachable) (hids : g.registry.HasFreshIds)
    (ha : g.registry.array? c = some a) :
    g.registry.types.superclass a = some ClassId.object := by
  obtain ⟨e, he, hkind⟩ := (hg.fresh hids).registry.exists_entry_of_array? ha
  have harray : e.kind.isArray = true := by
    rw [hkind]
    rfl
  show (g.registry.entryOf? a).bind ClassEntry.superclass = _
  rw [he]
  exact ((hg.sound hids).registry.array a e he harray).1

/-- No other component has the same array class. -/
theorem Reachable.eq_of_arrayOf (hg : g.Reachable) {c' : ClassId}
    (hids : (Registry.arrayOf c' g.registry).2.HasFreshIds) (ha : g.registry.array? c = some a)
    (heq : (Registry.arrayOf c' g.registry).1 = a) : c' = c := by
  have hfresh := hg.fresh (hids.of_le (g.registry.reserved_arrayOf_le c'))
  have hadds := hfresh.registry.adds_arrayOf hids
  have ha' := hfresh.registry.array?_arrayOf hids
  rw [heq] at ha'
  exact hadds.coherent.eq_of_array? ha' (hadds.grows.array? ha)

/-- Apart from the types every host provides, there are as many classes as commits and array classes
that were asked for. -/
theorem ReachedBy.counts (hg : g.ReachedBy n) (hids : g.registry.HasFreshIds) :
    g.registry.Counts n :=
  hg.entries_induction (P := Registry.Counts) Registry.counts_initial
    (fun h => ⟨h.object, h.string, h.size⟩) (fun h henters => h.enters_array henters)
    (fun h hclass henters => h.enters_class hclass henters) hids

/-- **The tables of a registry.**  As long as there is an id left to hand out, the following holds
of a registry that was reached by way of `n` commits.

The ids handed out are all different, and so is the next one; none of them is reserved.  Drafts have
such ids, each one for itself and without an entry, and entries have such ids or reserved ones.

Whatever is done, more ids are handed out and more entries follow those that are there, which do not
change.

The table of array classes has those that are registered, each under its component.  Asking for the
array class of a component answers the one that is registered, if there is one.  From then on it is
the only class of that kind, the answer to each such request and to no other, and below the
universal base type.

A name stands for the class that was registered last under it, and for none if there is no such
class.  Apart from the sixteen types every host provides there are `n` classes and the array classes
of the components they were asked for. -/
theorem ReachedBy.tables (hg : g.ReachedBy n)
    (hids : ClassId.firstUser.index.toNat + g.registry.reserved < ClassId.count) :
    (g.registry.handedOut.Nodup ∧ g.registry.next ∉ g.registry.handedOut ∧
      (∀ c ∈ g.registry.handedOut ++ [g.registry.next], ClassId.firstUser.index ≤ c.index) ∧
      (g.drafts.map Draft.id).Nodup ∧
      (∀ d ∈ g.drafts, d.id ∈ g.registry.handedOut ∧ g.registry.entryOf? d.id = none) ∧
      ∀ c e, g.registry.entryOf? c = some e →
        c.isReserved = true ∨ c ∈ g.registry.handedOut) ∧
    (∀ g', Relation.ReflTransGen Step g g' → g'.registry.HasFreshIds →
      g.registry.handedOut <+: g'.registry.handedOut ∧
      g.registry.entries.toList <+: g'.registry.entries.toList ∧
      ∀ c e, g.registry.entryOf? c = some e → g'.registry.entryOf? c = some e) ∧
    (∀ c, (∀ a, g.registry.array? c = some a ↔ g.registry.types.kind a = .array c) ∧
      (∀ a, g.registry.types.kind a = .array c →
        Registry.arrayOf c g.registry = (a, g.registry)) ∧
      ∀ g', Relation.ReflTransGen Step ⟨(Registry.arrayOf c g.registry).2, g.drafts⟩ g' →
        g'.registry.HasFreshIds →
        (∀ a, g'.registry.types.kind a = .array c ↔ a = (Registry.arrayOf c g.registry).1) ∧
        Registry.arrayOf c g'.registry = ((Registry.arrayOf c g.registry).1, g'.registry) ∧
        g'.registry.types.superclass (Registry.arrayOf c g.registry).1 = some ClassId.object ∧
        ∀ c', (Registry.arrayOf c' g'.registry).2.HasFreshIds →
          (Registry.arrayOf c' g'.registry).1 = (Registry.arrayOf c g.registry).1 → c' = c) ∧
    (∀ name c, g.registry.lookup name = some c ↔ ∃ before e after,
      g.registry.entries.toList = before ++ (c, e) :: after ∧ e.name = name ∧
        ∀ x ∈ after, x.2.name ≠ name) ∧
    (∀ name, g.registry.lookup name = none ↔
      ∀ x ∈ g.registry.entries.toList, x.2.name ≠ name) ∧
    g.registry.size = 16 + n + g.registry.arrayComponents.ncard := by
  have hreachable := hg.reachable
  have hnext : (Registry.reserve g.registry).2.HasFreshIds := hids
  have hids : g.registry.HasFreshIds := hnext.of_le (Nat.le_succ _)
  have hfresh := hreachable.fresh hids
  have hsound := hreachable.sound hids
  refine ⟨⟨Registry.nodup_handedOut hids, Registry.next_notMem_handedOut hnext, fun c hc => ?_,
      hfresh.nodup, fun d hd => ?_, fun c e he => ?_⟩,
    fun g' hrun hids' => ?_,
    fun c => ⟨hfresh.registry.arrays c, fun a ha => ?_, fun g' hrun hids' => ?_⟩,
    fun _ _ => hfresh.registry.lookup_eq_some_iff, fun _ => hfresh.registry.lookup_eq_none_iff,
    (hg.counts hids).size⟩
  · have hc : c ∈ (Registry.reserve g.registry).2.handedOut := by
      rw [Registry.handedOut_reserve]
      exact hc
    have hnot := Registry.isReserved_of_mem_handedOut hnext hc
    rwa [ClassId.isReserved, decide_eq_false_iff_not, UInt32.not_lt] at hnot
  · obtain ⟨hout, hnone⟩ := hfresh.drafts d hd
    exact ⟨hout.mem_handedOut (hsound.drafts d hd).1, hnone⟩
  · cases hc : c.isReserved with
    | true => exact .inl rfl
    | false => exact .inr ((hfresh.registry.numbered c e he).mem_handedOut hc)
  · have hgrows := hreachable.grows_of_run hrun hids'
    exact ⟨Registry.handedOut_prefix (reserved_le_of_run hrun), hgrows.entries, fun c e he =>
      hgrows.entryOf? he⟩
  · exact Registry.arrayOf_of_array? ((hfresh.registry.arrays c a).2 ha)
  · -- what was answered then is in the table of array classes now
    have hasked : (Registry.arrayOf c g.registry).2.HasFreshIds :=
      hids'.of_le (reserved_le_of_run hrun)
    have ha := hreachable.array?_of_run hasked hrun hids'
    have hreachable' : g'.Reachable := (hreachable.tail (.arrayOf _ _ c)).trans hrun
    refine ⟨fun x => ?_, Registry.arrayOf_of_array? ha,
      hreachable'.superclass_of_array? hids' ha, fun c' hc' => hreachable'.eq_of_arrayOf hc' ha⟩
    rw [← (hreachable'.fresh hids').registry.arrays, ha, Option.some.injEq, eq_comm]

theorem IsCommit.length_drafts (h : g.IsCommit g') :
    g.drafts.length = g'.drafts.length + 1 := by
  obtain ⟨r, before, after, d, rfl, rfl⟩ := h
  simp only [List.length_append, List.length_cons]
  omega

theorem reachedBy_nodes : nodes.ReachedBy 1 := by
  have hstart : ReachedBy 0 ⟨(Registry.reserve Registry.initial).2,
      [] ++ (Draft.start .concrete "Node" Registry.initial).1 :: []⟩ :=
    .other .new (.start Registry.initial [] (.inl rfl) "Node")
      fun h => absurd h.length_drafts (by decide)
  have hedit : ReachedBy 0 ⟨(Registry.reserve Registry.initial).2, [] ++ nodeDraft :: []⟩ :=
    .other hstart (.edit _ [] [] (.addField _ _)) fun h => absurd h.length_drafts (by decide)
  exact .commit hedit ⟨_, [], [], nodeDraft, rfl, rfl⟩

/-- `Node` is found by its name, its array class is the one registered, and there are no others. -/
theorem tables_nodes :
    nodes.ReachedBy 1 ∧ ClassId.firstUser.index.toNat + nodes.registry.reserved < ClassId.count ∧
      nodes.registry.handedOut = [16, 17] ∧ nodes.registry.handedOut.Nodup ∧
      Registry.arrayOf 16 nodes.registry = (17, nodes.registry) ∧
      nodes.registry.lookup "Node" = some 16 ∧ nodes.registry.lookup "Node[]" = none ∧
      nodes.registry.arrayComponents.ncard = 1 := by
  have hids : ClassId.firstUser.index.toNat + nodes.registry.reserved < ClassId.count := by
    decide +kernel
  obtain ⟨⟨hnodup, -⟩, -, harrays, -, hnone, hsize⟩ := reachedBy_nodes.tables hids
  have hnumber : nodes.registry.size = 18 := by decide +kernel
  refine ⟨reachedBy_nodes, hids, by decide +kernel, hnodup, (harrays 16).2.1 17 kind_nodes,
    ?_, ?_, ?_⟩
  · decide +kernel
  · exact (hnone _).2 (by decide +kernel)
  · omega

end Registration

end ScriptSurface
