import ScriptSurface.Proofs.Mapping.Recursion
import ScriptSurface.Proofs.Session.Mappings

/-!
# The mappings a session keeps

A session that is asked for mappings keeps those of the classes it was asked for and of all their
ancestors, apart from the classes whose mapping is empty anyway (`Mapping.parts`).  Each is composed
once (`Session.KeepsMappings`).  The first request for a class keeps what is missing of its parts
(`Session.ensures_keepsMappings`); any other request finds the mapping and leaves the session as it
is (`Session.mapping_of_find?`).

What is answered does not depend on the requests before: it is what the recursion over the
hierarchy says (`Session.askedMapping_isRecursive`).
-/

namespace ScriptSurface

/-! ### Classes that a mapping rests on -/

/-- The classes whose mappings go into that of a class: itself and its ancestors, apart from those
whose mapping is empty whatever they declare. -/
def Mapping.parts (h : HostTypes) (c : ClassId) : Set ClassId :=
  {k | isTrivial h k = false ∧ (k = c ∨ h.HasAncestor c k)}

/-- The classes whose mappings go into those of some classes. -/
def Mapping.partsOf (h : HostTypes) (classes : List ClassId) : Set ClassId :=
  {k | ∃ c ∈ classes, k ∈ parts h c}

namespace Mapping

variable {h : HostTypes} {c k p : ClassId} {classes : List ClassId}

theorem parts_of_isTrivial (hreg : h.Regular) (hc : isTrivial h c = true) : parts h c = ∅ := by
  refine Set.eq_empty_of_forall_notMem fun k hk => ?_
  obtain ⟨hnot, rfl | hanc⟩ := hk
  · rw [hc] at hnot
    cases hnot
  · rw [hreg.eq_object_of_hasAncestor hc hanc] at hnot
    simp [isTrivial] at hnot

/-- The mapping of a class rests on the class and on what the mappings of its supertypes rest on. -/
theorem parts_eq (hc : isTrivial h c = false) :
    parts h c = insert c (partsOf h (h.supertypes c)) := by
  ext k
  constructor
  · rintro ⟨hk, rfl | hanc⟩
    · exact .inl rfl
    · right
      rcases Relation.TransGen.head'_iff.1 hanc with ⟨p, hp, hpk⟩
      rw [Relation.reflTransGen_iff_eq_or_transGen] at hpk
      exact ⟨p, hp, hk, hpk⟩
  · rintro (rfl | ⟨p, hp, hk, rfl | hanc⟩)
    · exact ⟨hc, .inl rfl⟩
    · exact ⟨hk, .inr (.single hp)⟩
    · exact ⟨hk, .inr (.head hp hanc)⟩

theorem parts_subset (hk : k ∈ parts h c) : parts h k ⊆ parts h c := by
  rintro j ⟨hj, hanc⟩
  obtain ⟨-, rfl | hck⟩ := hk
  · exact ⟨hj, hanc⟩
  · rcases hanc with rfl | hkj
    · exact ⟨hj, .inr hck⟩
    · exact ⟨hj, .inr (hck.trans hkj)⟩

theorem partsOf_nil : partsOf h [] = ∅ := by simp [partsOf]

theorem partsOf_append_singleton :
    partsOf h (classes ++ [c]) = partsOf h classes ∪ parts h c := by
  ext k
  simp [partsOf, or_and_right, exists_or]

theorem parts_subset_partsOf (hk : k ∈ partsOf h classes) : parts h k ⊆ partsOf h classes := by
  obtain ⟨c, hc, hk⟩ := hk
  exact fun j hj => ⟨c, hc, parts_subset hk hj⟩

/-- A class is not among what the mappings of its supertypes rest on. -/
theorem notMem_partsOf_supertypes (hac : h.Acyclic) : c ∉ partsOf h (h.supertypes c) := by
  rintro ⟨p, hp, -, rfl | hanc⟩
  · exact hac c (.single hp)
  · exact hac c (.head hp hanc)

end Mapping

namespace Session

/-! ### What is kept -/

/-- The classes whose mappings were composed, in order. -/
def compositions (s : Session) : List ClassId :=
  s.events.filterMap fun
    | .composedMapping c _ _ => some c
    | _ => none

/-- The session keeps the mappings of exactly the given classes, and has composed each of them
once. -/
structure KeepsMappings (K : Set ClassId) (s : Session) : Prop where
  /-- The classes whose mappings are kept. -/
  keys : ∀ k, k ∈ s.mappings.keys ↔ k ∈ K
  /-- Mappings are kept in the order in which they were composed. -/
  compositions : s.compositions = s.mappings.keys

variable {h : HostTypes} {limit : ℕ} {c : ClassId} {K : Set ClassId} {s : Session}

theorem keepsMappings_start (h : HostTypes) : (start h).KeepsMappings ∅ where
  keys k := by simp [start]
  compositions := rfl

theorem ensures_noteTooDeep_keepsMappings (limit : ℕ) (parts : List TypeExpr) :
    Ensures (KeepsMappings K) (noteTooDeep limit parts) fun _ s => s.KeepsMappings K := by
  refine .forM (fun t s hs => ⟨hs.keys, ?_⟩) parts
  have hnone : (note (.tooDeep t limit) s).2.compositions = s.compositions := by
    show (s.events ++ [_]).filterMap _ = s.events.filterMap _
    rw [List.filterMap_append]
    exact List.append_nil _
  rw [hnone]
  exact hs.compositions

/-- Composing the mapping of a class adds the class to those whose mappings are kept. -/
theorem ensures_compose_keepsMappings (hc : c ∉ K) (name : String) (entries : ℕ) (m : Mapping) :
    Ensures (KeepsMappings K) (do
      note (.composedMapping c name entries)
      modify fun s => { s with mappings := s.mappings.put c m }
      return m) fun _ s => s.KeepsMappings (insert c K) := by
  intro s hs
  have hnew : c ∉ s.mappings.keys := fun hmem => hc ((hs.keys c).1 hmem)
  have hkeys : (s.mappings.put c m).keys = s.mappings.keys ++ [c] := by
    rw [Assoc.keys_put, if_neg hnew]
  constructor
  · intro k
    show k ∈ (s.mappings.put c m).keys ↔ _
    rw [hkeys, List.mem_append, List.mem_singleton, hs.keys, Set.mem_insert_iff, or_comm]
  · show (s.events ++ [_]).filterMap _ = (s.mappings.put c m).keys
    rw [hkeys, List.filterMap_append, ← hs.compositions]
    rfl

/-- A session that is asked for the mappings of some classes in turn comes to keep all that they
rest on, if it does so for each. -/
theorem ensures_mapM_keepsMappings (limit : ℕ) {n : ℕ} {classes : List ClassId}
    (hK : ∀ k ∈ K, Mapping.parts h k ⊆ K)
    (hclass : ∀ p ∈ classes, ∀ K, (∀ k ∈ K, Mapping.parts h k ⊆ K) →
      Ensures (KeepsMappings K) (mappingWithin h limit n p) fun _ s =>
        s.KeepsMappings (K ∪ Mapping.parts h p)) :
    Ensures (KeepsMappings K) (classes.mapM fun parent => do
        let m ← mappingWithin h limit n parent
        noteTooDeep limit (m.beyond limit)
        return m)
      fun _ s => s.KeepsMappings (K ∪ Mapping.partsOf h classes) := by
  have hstart : K = K ∪ Mapping.partsOf h [] := by rw [Mapping.partsOf_nil, Set.union_empty]
  nth_rewrite 1 [hstart]
  refine .mapM_done (P := fun done => KeepsMappings (K ∪ Mapping.partsOf h done)) []
    fun done p hp => ?_
  have hclosed : ∀ k ∈ K ∪ Mapping.partsOf h done,
      Mapping.parts h k ⊆ K ∪ Mapping.partsOf h done := by
    rintro k (hk | hk)
    · exact (hK k hk).trans Set.subset_union_left
    · exact (Mapping.parts_subset_partsOf hk).trans Set.subset_union_right
  rw [Mapping.partsOf_append_singleton, ← Set.union_assoc]
  refine .bind (hclass p hp _ hclosed) fun m => ?_
  exact .bind (ensures_noteTooDeep_keepsMappings limit _) fun _ => .pure fun s hs => hs

/-- A session that is asked for the mapping of a class comes to keep all that it rests on. -/
theorem ensures_keepsMappings (hac : h.Acyclic) (hreg : h.Regular) {rank : ClassId → ℕ}
    (hrank : ∀ c, ∀ p ∈ h.supertypes c, rank p < rank c) {n : ℕ} (hn : rank c < n)
    (hK : ∀ k ∈ K, Mapping.parts h k ⊆ K) :
    Ensures (KeepsMappings K) (mappingWithin h limit n c) fun _ s =>
      s.KeepsMappings (K ∪ Mapping.parts h c) := by
  induction n generalizing c K with
  | zero => omega
  | succ n ih =>
    rw [mappingWithin]
    split_ifs with htrivial
    · rw [Mapping.parts_of_isTrivial hreg htrivial, Set.union_empty]
      exact .pure fun s hs => hs
    · rw [Bool.not_eq_true] at htrivial
      refine .bind_get fun s hs => ?_
      split
      · next m hm =>
        -- with a mapping, all that it rests on is there already
        have hmem : c ∈ K := (hs.keys c).1 ((Assoc.isSome_find?_iff _ _).1 (by rw [hm]; rfl))
        rw [Set.union_eq_self_of_subset_right (hK c hmem)]
        exact .pure fun s' heq => heq ▸ hs
      · next hnone =>
        refine .of_state ?_ hs
        have hnot : c ∉ K := by
          intro hmem
          obtain ⟨m, hm⟩ := Option.isSome_iff_exists.1
            ((Assoc.isSome_find?_iff _ _).2 ((hs.keys c).2 hmem))
          exact hnone m hm
        have hlt : ∀ p ∈ h.supertypes c, rank p < n := fun p hp => by
          have := hrank c p hp
          omega
        refine .bind (ensures_mapM_keepsMappings limit hK fun p hp _ hK => ih (hlt p hp) hK)
          fun inherited => ?_
        have hself : c ∉ K ∪ Mapping.partsOf h (h.supertypes c) := by
          rintro (hmem | hmem)
          · exact hnot hmem
          · exact Mapping.notMem_partsOf_supertypes hac hmem
        rw [Mapping.parts_eq htrivial, Set.union_insert]
        exact ensures_compose_keepsMappings hself _ _ _

/-! ### Requests for what is kept -/

theorem mapping_of_isTrivial (hc : Mapping.isTrivial h c = true) (s : Session) :
    mapping h limit c s = (Mapping.shared, s) := by
  obtain ⟨n, hn⟩ : ∃ n, ClassId.count = n + 1 := ⟨_, rfl⟩
  rw [mapping, hn, mappingWithin, if_pos hc]
  rfl

/-- A mapping that is kept is answered, and the session stays as it is. -/
theorem mapping_of_find? (hc : Mapping.isTrivial h c = false) {m : Mapping}
    (hm : s.mappings.find? c = some m) : mapping h limit c s = (m, s) := by
  obtain ⟨n, hn⟩ : ∃ n, ClassId.count = n + 1 := ⟨_, rfl⟩
  have hhit : Ensures (fun s' => s' = s) (mapping h limit c) fun m' s' => m' = m ∧ s' = s := by
    rw [mapping, hn, mappingWithin, if_neg (by simp [hc])]
    refine .bind_get fun s' hs' => ?_
    split
    · next m' hm' =>
      rw [hs', hm] at hm'
      exact .pure fun s'' heq => ⟨(Option.some.inj hm').symm, heq.trans hs'⟩
    · next hnone => exact absurd (hs' ▸ hm) (hnone m)
  obtain ⟨hanswer, hstate⟩ := hhit s rfl
  exact Prod.ext hanswer hstate

/-! ### Runs of requests -/

variable {env : Environment}

/-- After a run of requests, the mappings that those asked for rest on are kept. -/
theorem keepsMappings_after (hac : env.types.Acyclic) (hreg : env.types.Regular)
    (classes : List ClassId) :
    (after env (classes.map .mapping)).KeepsMappings (Mapping.partsOf env.types classes) := by
  obtain ⟨rank, hrank⟩ := hac.exists_rank
  induction classes using List.reverseRecOn with
  | nil =>
    rw [List.map_nil, Mapping.partsOf_nil]
    exact keepsMappings_start env.types
  | append_singleton classes c ih =>
    have hstep : Ensures (KeepsMappings (Mapping.partsOf env.types classes))
        (mapping env.types env.limit c) fun _ s =>
          s.KeepsMappings (Mapping.partsOf env.types classes ∪ Mapping.parts env.types c) :=
      ensures_keepsMappings hac hreg (fun c => (hrank c).2) (hrank c).1
        fun k hk => Mapping.parts_subset_partsOf hk
    rw [List.map_append, after, List.foldl_append, Mapping.partsOf_append_singleton]
    exact hstep _ ih

/-- The session of an environment that was asked for the mappings of some classes. -/
def asked (env : Environment) (classes : List ClassId) : Session :=
  after env (classes.map .mapping)

/-- The mapping that such a session answers for a class. -/
def askedMapping (env : Environment) (classes : List ClassId) (c : ClassId) : Mapping :=
  answer env (classes.map .mapping) (mapping env.types env.limit c)

/-- **What a session answers for mappings, and what it keeps.**  Whatever mappings it was asked for
before, what it answers satisfies the recursion over the hierarchy and is what anything else that
satisfies it says; classes that cannot be generic and classes that bind nothing get the shared
mapping.  It keeps the mappings of the classes it was asked for and of all their ancestors, apart
from those that cannot be generic, and composed each of them once.  When it is asked for one of
them again, it answers the one it keeps and stays as it is. -/
theorem askedMapping_isRecursive {g : Registration} (hg : g.Reachable)
    (hids : g.registry.HasFreshIds) (env : Environment) (henv : env.types = g.registry.types)
    (hac : env.types.Acyclic) (hpos : env.types.HasPositions) (classes : List ClassId) :
    Mapping.IsRecursive env.types env.limit (fun c => (askedMapping env classes c).find?) ∧
    (∀ β, Mapping.IsRecursive env.types env.limit β →
      ∀ c v, (askedMapping env classes c).find? v = β c v) ∧
    (∀ c, Mapping.isTrivial env.types c = true ∨
        (∀ v, (askedMapping env classes c).find? v = none) →
      askedMapping env classes c = Mapping.shared) ∧
    (∀ k, k ∈ (asked env classes).mappings.keys ↔ Mapping.isTrivial env.types k = false ∧
      ∃ c ∈ classes, k = c ∨ env.types.HasAncestor c k) ∧
    (asked env classes).compositions = (asked env classes).mappings.keys ∧
    ∀ c ∈ classes, (Mapping.isTrivial env.types c = false →
        (asked env classes).mappings.find? c = some (askedMapping env classes c)) ∧
      asked env (classes ++ [c]) = asked env classes := by
  have hreg : env.types.Regular := henv ▸ hg.regular hids
  have hof : ∀ c, askedMapping env classes c = Mapping.of env.types env.limit c :=
    answer_mapping hac _
  have hkeeps := keepsMappings_after hac hreg classes
  have hkept : ∀ c ∈ classes, Mapping.isTrivial env.types c = false →
      (asked env classes).mappings.find? c = some (askedMapping env classes c) := by
    intro c hc hnot
    have hmem : c ∈ (asked env classes).mappings.keys := (hkeeps.keys c).2 ⟨c, hc, hnot, .inl rfl⟩
    obtain ⟨m, hm⟩ := Option.isSome_iff_exists.1 ((Assoc.isSome_find?_iff _ _).2 hmem)
    rw [hm, hof, (knows_after hac (classes.map .mapping)).1.mappings c m hm]
  refine ⟨?_, ?_, ?_, ?_, hkeeps.compositions, fun c hc => ⟨hkept c hc, ?_⟩⟩
  · simp only [hof]
    exact Mapping.isRecursive_of hac hpos env.limit
  · intro β hβ c v
    rw [hof]
    exact hβ.find?_of hac hpos c v
  · rintro c (hc | hnone)
    · exact congrArg Prod.fst (mapping_of_isTrivial hc (asked env classes))
    · rw [hof] at hnone ⊢
      exact Mapping.of_eq_shared hac hnone
  · intro k
    refine (hkeeps.keys k).trans ?_
    constructor
    · rintro ⟨c, hc, hk, hanc⟩
      exact ⟨hk, c, hc, hanc⟩
    · rintro ⟨hk, c, hc, hanc⟩
      exact ⟨c, hc, hk, hanc⟩
  · have hlast : asked env (classes ++ [c])
        = (mapping env.types env.limit c (asked env classes)).2 := by
      rw [asked, List.map_append, after, List.foldl_append]
      rfl
    rw [hlast]
    cases hnot : Mapping.isTrivial env.types c with
    | true => rw [mapping_of_isTrivial hnot]
    | false => rw [mapping_of_find? hnot (hkept c hc hnot)]

theorem hasPositions_boxes : boxEnvironment.types.HasPositions := by
  have hentries : ∀ x ∈ boxes.registry.entries.toList,
      x.2.typeParams.length ≤ UInt16.size := by
    decide +kernel
  intro c
  rcases boxes.registry.entryOf?_cases c with he | ⟨e, he, hmem⟩
  · simp [boxEnvironment, Environment.plain, Registry.types, he]
  · have hparams : boxEnvironment.types.typeParams c = e.typeParams := by
      simp [boxEnvironment, Environment.plain, Registry.types, he]
    rw [hparams]
    exact hentries (c, e) hmem

theorem askedMapping_isRecursive_boxes :
    boxes.Reachable ∧ boxes.registry.HasFreshIds ∧ boxEnvironment.types.Acyclic ∧
      boxEnvironment.types.HasPositions ∧
      16 ∈ (asked boxEnvironment [17]).mappings.keys ∧
      (askedMapping boxEnvironment [17, 16] 17).find? (.at 16 0)
        = some (.plain ClassId.string .anonymous) := by
  refine ⟨reachable_boxes, hasFreshIds_boxes, acyclic_boxes, hasPositions_boxes, ?_, ?_⟩
  · obtain ⟨-, -, -, hkeys, -⟩ := askedMapping_isRecursive reachable_boxes hasFreshIds_boxes
      boxEnvironment rfl acyclic_boxes hasPositions_boxes [17]
    exact (hkeys 16).2 ⟨by decide +kernel, 17, List.mem_singleton_self 17,
      .inr (.single (by decide +kernel))⟩
  · obtain ⟨hrec, -⟩ := askedMapping_isRecursive reachable_boxes hasFreshIds_boxes
      boxEnvironment rfl acyclic_boxes hasPositions_boxes [17, 16]
    have hstep := hrec.step 17 (by decide +kernel) (.at 16 0)
    rw [hstep]
    rfl

end Session

end ScriptSurface
