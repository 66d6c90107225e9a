import ScriptSurface.Proofs.Registry.Entries
import ScriptSurface.Proofs.Session.Mappings
import ScriptSurface.Proofs.Session.Replies

/-!
# The descriptors of a session

A session hands out one descriptor for each type: it goes by a key, and what is kept under a key is
never replaced.  All array types share one, and null has that of the universal base type
(`Descriptor.Key.ofClass_eq_iff`).

Where the base type is below nothing and array classes are below it only, as in a registry, keys are
linked as their classes are (`Descriptor.Key.supertypes_ofClass`).  So the descriptors of a session
that was asked for those of some values are those of their classes and of all ancestors
(`Session.mem_keys_described_iff`).
-/

namespace ScriptSurface

open Descriptor (Key)

/-! ### Types with descriptors set aside -/

/-- What holds of the types that have descriptors set aside for them. -/
structure HostTypes.SetsAside (h : HostTypes) : Prop where
  /-- No class is above the universal base type. -/
  object : h.superclass ClassId.object = none ∧ h.interfaces ClassId.object = []
  /-- Only the universal base type is above an array class. -/
  array : ∀ c, h.isArray c = true →
    h.superclass c = some ClassId.object ∧ h.interfaces c = []
  /-- The universal base type is no array class. -/
  not_isArray_object : h.isArray ClassId.object = false
  /-- The type of types is no array class. -/
  not_isArray_metatype : h.isArray ClassId.metatype = false

theorem Registration.Reachable.setsAside {g : Registration} (hg : g.Reachable)
    (hids : g.registry.HasFreshIds) : g.registry.types.SetsAside := by
  have hsound := (hg.sound hids).registry
  have hobject := hsound.reserved ClassId.object (by decide)
  have hmetatype := hsound.reserved ClassId.metatype (by decide)
  refine ⟨⟨?_, ?_⟩, fun c hc => ?_, ?_, ?_⟩
  · show (g.registry.entryOf? ClassId.object).bind ClassEntry.superclass = none
    rw [hobject]
    decide +kernel
  · show ((g.registry.entryOf? ClassId.object).map ClassEntry.interfaces).getD [] = []
    rw [hobject]
    decide +kernel
  · cases he : g.registry.entryOf? c with
    | none =>
      simp [HostTypes.isArray, Registry.types, he, Kind.isArray] at hc
    | some e =>
      have hkind : e.kind.isArray = true := Registry.kind_of_entryOf? he ▸ hc
      have hplain := hsound.array c e he hkind
      simp [Registry.types, he, hplain.1, hplain.2]
  · show (((g.registry.entryOf? ClassId.object).map ClassEntry.kind).getD .concrete).isArray = false
    rw [hobject]
    decide +kernel
  · show (((g.registry.entryOf? ClassId.metatype).map ClassEntry.kind).getD .concrete).isArray
      = false
    rw [hmetatype]
    decide +kernel

namespace Descriptor.Key

variable {h : HostTypes} {c d : ClassId} {key : Key}

theorem ofClass_eq_object_iff : ofClass h c = object ↔ c = ClassId.object := by
  unfold ofClass
  split_ifs <;> simp_all

theorem ofClass_eq_array_iff (hside : h.SetsAside) : ofClass h c = array ↔ h.isArray c = true := by
  unfold ofClass
  split_ifs with hobject hmetatype
  · simp [hobject, hside.not_isArray_object]
  · simp [hmetatype, hside.not_isArray_metatype]
  · simpa
  · simpa using ‹¬h.isArray c = true›

/-- The descriptor of a class that is no array class is for that class. -/
theorem cls_ofClass_of_not_isArray (hside : h.SetsAside) (hc : h.isArray c = false) :
    (ofClass h c).cls = c := by
  by_cases hobject : ofClass h c = object
  · rw [hobject, ofClass_eq_object_iff.1 hobject]
    rfl
  · refine cls_ofClass hobject fun harray => ?_
    rw [(ofClass_eq_array_iff hside).1 harray] at hc
    cases hc

/-- Two classes have the same descriptor exactly if they are the same or both array classes. -/
theorem ofClass_eq_iff (hside : h.SetsAside) :
    ofClass h c = ofClass h d ↔ c = d ∨ h.isArray c = true ∧ h.isArray d = true := by
  constructor
  · intro heq
    by_cases harray : ofClass h c = array
    · exact .inr ⟨(ofClass_eq_array_iff hside).1 harray,
        (ofClass_eq_array_iff hside).1 (heq ▸ harray)⟩
    · have hnot : ∀ {k}, ofClass h k ≠ array → h.isArray k = false := fun hk => by
        rwa [Ne, ofClass_eq_array_iff hside, Bool.not_eq_true] at hk
      have hcls := congrArg cls heq
      rw [cls_ofClass_of_not_isArray hside (hnot harray),
        cls_ofClass_of_not_isArray hside (hnot (heq ▸ harray))] at hcls
      exact .inl hcls
  · rintro (rfl | ⟨hc, hd⟩)
    · rfl
    · rw [(ofClass_eq_array_iff hside).2 hc, (ofClass_eq_array_iff hside).2 hd]

theorem general_eq_ofClass_iff {k : ClassId} :
    general k = ofClass h c ↔ c = k ∧
      k ≠ ClassId.object ∧ k ≠ ClassId.metatype ∧ h.isArray k = false := by
  unfold ofClass
  constructor
  · intro heq
    split_ifs at heq with hobject hmetatype harray
    cases heq
    exact ⟨rfl, hobject, hmetatype, by simpa using harray⟩
  · rintro ⟨rfl, hobject, hmetatype, harray⟩
    rw [if_neg hobject, if_neg hmetatype, if_neg (by simp [harray])]

/-- What the descriptor of a class says of its supertypes. -/
theorem of_ofClass (hside : h.SetsAside) (c : ClassId) :
    (Descriptor.of h (ofClass h c)).parent = (h.superclass c).map (ofClass h) ∧
      (Descriptor.of h (ofClass h c)).interfaces = (h.interfaces c).map (ofClass h) := by
  by_cases hobject : ofClass h c = object
  · have hc := ofClass_eq_object_iff.1 hobject
    rw [hobject, hc, hside.object.1, hside.object.2]
    exact ⟨rfl, rfl⟩
  by_cases harray : ofClass h c = array
  · obtain ⟨hsuper, hinterfaces⟩ := hside.array c ((ofClass_eq_array_iff hside).1 harray)
    have hbase : ofClass h ClassId.object = object := ofClass_eq_object_iff.2 rfl
    rw [harray, hsuper, hinterfaces, Option.map_some, hbase]
    exact ⟨rfl, rfl⟩
  · rw [Descriptor.of_ofClass hobject harray]
    exact ⟨rfl, rfl⟩

/-- Keys are linked as their classes are. -/
theorem supertypes_ofClass (hside : h.SetsAside) (c : ClassId) :
    supertypes h (ofClass h c) = (h.supertypes c).map (ofClass h) := by
  obtain ⟨hparent, hinterfaces⟩ := of_ofClass hside c
  rw [← Descriptor.supertypes_of, Descriptor.supertypes, hparent, hinterfaces,
    HostTypes.supertypes, List.map_append, Option.toList_map]

/-- Above the descriptor of a class are those of its ancestors. -/
theorem mem_above_ofClass_iff (hside : h.SetsAside) :
    key ∈ above h (ofClass h c) ↔ ∃ k, (k = c ∨ h.HasAncestor c k) ∧ key = ofClass h k := by
  constructor
  · intro hkey
    induction hkey with
    | refl => exact ⟨c, .inl rfl, rfl⟩
    | tail _ hstep ih =>
      obtain ⟨k, hk, rfl⟩ := ih
      rw [supertypes_ofClass hside, List.mem_map] at hstep
      obtain ⟨p, hp, rfl⟩ := hstep
      refine ⟨p, .inr ?_, rfl⟩
      rcases hk with rfl | hk
      · exact .single hp
      · exact hk.tail hp
  · have hstep : ∀ k p, p ∈ h.supertypes k → ofClass h p ∈ supertypes h (ofClass h k) := by
      intro k p hp
      rw [supertypes_ofClass hside]
      exact List.mem_map_of_mem hp
    rintro ⟨k, rfl | hk, rfl⟩
    · exact .refl
    · exact (Relation.TransGen.lift (p := fun a b => b ∈ supertypes h a) (ofClass h) hstep
        _ _ hk).to_reflTransGen

end Descriptor.Key

namespace Session

variable {env : Environment}

/-! ### Requests for descriptors -/

/-- The session of an environment that was asked for the descriptors of some values, given by their
classes. -/
def described (env : Environment) (values : List (Option ClassId)) : Session :=
  after env (values.map .describe)

/-- The key of the descriptor that such a session answers for a value. -/
def describedKey (env : Environment) (values : List (Option ClassId)) (value : Option ClassId) :
    Key :=
  answer env (values.map .describe) (describeValue env.types value)

theorem describedKey_eq (hac : env.types.Acyclic) (values : List (Option ClassId))
    (value : Option ClassId) :
    describedKey env values value = Key.ofClass env.types (value.getD ClassId.object) := by
  cases value with
  | none => exact (Key.ofClass_eq_object_iff.2 rfl).symm
  | some c => exact (ensures_describe hac c _ (knows_after hac _)).1

theorem described_append_singleton (values : List (Option ClassId)) (value : Option ClassId) :
    described env (values ++ [value])
      = (describeValue env.types value (described env values)).2 := by
  rw [described, List.map_append, after, List.foldl_append]
  rfl

theorem computesOnly_described (hac : env.types.Acyclic) (values : List (Option ClassId)) :
    (start env.types).ComputesOnly env
      (Computation.descriptor '' {key | ∃ value ∈ values,
        key ∈ Key.above env.types (Key.ofClass env.types (value.getD ClassId.object))})
      (described env values) := by
  induction values using List.reverseRecOn with
  | nil => exact .refl _
  | append_singleton values value ih =>
    rw [described_append_singleton]
    refine (ih.mono (Set.image_mono ?_)).trans ?_
    · rintro key ⟨value', hvalue', hkey⟩
      exact ⟨value', List.mem_append_left _ hvalue', hkey⟩
    · cases value with
      | none => exact .refl _
      | some c =>
        refine (computesOnly_describe hac c (knows_after hac _)).mono (Set.image_mono ?_)
        exact fun key hkey => ⟨some c, by simp, hkey⟩

theorem has_described (hac : env.types.Acyclic) {values : List (Option ClassId)}
    {value : Option ClassId} (hvalue : value ∈ values) :
    Key.ofClass env.types (value.getD ClassId.object)
      ∈ (described env values).descriptors.keys := by
  cases value with
  | none =>
    have hbase : Key.ofClass env.types ((none : Option ClassId).getD ClassId.object) = .object :=
      Key.ofClass_eq_object_iff.2 rfl
    rw [hbase]
    exact (knows_after hac _).1.object
  | some c =>
    have hqueries : ∀ r ∈ values.map Request.describe, r.isQuery = true := by
      simp [Request.isQuery]
    exact (attains_append hac [] hqueries).2 (.descriptor (Key.ofClass env.types c))
      (List.mem_flatMap.2 ⟨_, List.mem_map_of_mem hvalue, by simp [Request.needs]⟩)

/-- A session that was asked for some descriptors has those of the classes and of all types above
them, besides the two it had from the start. -/
theorem mem_keys_described_iff (hac : env.types.Acyclic) (values : List (Option ClassId))
    (key : Key) :
    key ∈ (described env values).descriptors.keys ↔ key = .object ∨ key = .array ∨
      ∃ value ∈ values, key ∈ Key.above env.types
        (Key.ofClass env.types (value.getD ClassId.object)) := by
  have hsound := (knows_after hac (values.map Request.describe)).1
  constructor
  · intro hkey
    obtain ⟨cs, hcs, honly⟩ := computesOnly_described hac values
    rcases (hcs.has (.descriptor key)).1 hkey with hstart | hmem
    · exact ((mem_keys_start env.types key).1 hstart).imp id .inl
    · obtain ⟨key', habove, heq⟩ := honly _ hmem
      obtain rfl := Computation.descriptor.inj heq
      exact .inr (.inr habove)
  · rintro (rfl | rfl | ⟨value, hvalue, habove⟩)
    · exact hsound.object
    · exact hsound.array
    · induction habove with
      | refl => exact has_described hac hvalue
      | tail _ hstep ih => exact hsound.closed _ ih _ hstep

/-! ### Numbers of descriptors -/

theorem descriptorCount_described (hac : env.types.Acyclic) (hside : env.types.SetsAside)
    (values : List (Option ClassId)) :
    (described env values).descriptorCount
      = {k | k ≠ ClassId.object ∧ k ≠ ClassId.metatype ∧ env.types.isArray k = false ∧
          ∃ value ∈ values, k = value.getD ClassId.object ∨
            env.types.HasAncestor (value.getD ClassId.object) k}.ncard := by
  set keys := (described env values).descriptors.keys.filter Key.isGeneral with hkeys
  have hgeneral : ∀ key ∈ keys, Key.general key.cls = key := by
    intro key hkey
    have := (List.mem_filter.1 hkey).2
    cases key <;> first | rfl | cases this
  have hnodup : (keys.map Key.cls).Nodup := by
    refine List.Nodup.map_on (fun key hkey key' hkey' heq => ?_)
      ((described env values).descriptors.keys_nodup.filter _)
    rw [← hgeneral key hkey, ← hgeneral key' hkey', heq]
  have hmem : ∀ k, k ∈ keys.map Key.cls ↔
      .general k ∈ (described env values).descriptors.keys := by
    intro k
    rw [List.mem_map]
    constructor
    · rintro ⟨key, hkey, rfl⟩
      rw [hgeneral key hkey]
      exact (List.mem_filter.1 hkey).1
    · exact fun hk => ⟨.general k, List.mem_filter.2 ⟨hk, rfl⟩, rfl⟩
  rw [ncard_eq_length hnodup fun k => ?_, List.length_map]
  · rfl
  · rw [hmem, mem_keys_described_iff hac]
    simp only [Key.mem_above_ofClass_iff hside, Key.general_eq_ofClass_iff]
    constructor
    · rintro ⟨hobject, hmetatype, harray, value, hvalue, hk⟩
      exact .inr (.inr ⟨value, hvalue, k, hk, rfl, hobject, hmetatype, harray⟩)
    · rintro (h | h | ⟨value, hvalue, j, hj, rfl, hobject, hmetatype, harray⟩)
      · cases h
      · cases h
      · exact ⟨hobject, hmetatype, harray, value, hvalue, hj⟩

/-! ### Instances -/

/-- **One descriptor for each type.**  A session that is asked for descriptors in any order answers
the same one for two values exactly if they are of the same class or both arrays, null being of the
universal base type.  A descriptor is created once and never replaced.  Each descriptor that is
there reports its class, unless it is that of arrays, and its parent and interfaces are what the
session answers for the supertypes of the class, which does not change the session.  Apart from
those set aside there are as many descriptors as classes asked for and ancestors of such classes. -/
theorem describedKey_eq_iff {g : Registration} (hg : g.Reachable) (hids : g.registry.HasFreshIds)
    (env : Environment) (henv : env.types = g.registry.types) (hac : env.types.Acyclic)
    (values : List (Option ClassId)) :
    (∀ more v v', describedKey env values v = describedKey env (values ++ more) v' ↔
      v.getD ClassId.object = v'.getD ClassId.object ∨
        env.types.isArray (v.getD ClassId.object) = true ∧
          env.types.isArray (v'.getD ClassId.object) = true) ∧
    ((described env values).creations.Nodup ∧
      ∀ more, (described env values).Extends (described env (values ++ more))) ∧
    (∀ v ∈ values, describedKey env values v ∈ (described env values).descriptors.keys) ∧
    (∀ c, describedKey env values (some c) ∈ (described env values).descriptors.keys →
      (env.types.isArray c = false → (describedKey env values (some c)).cls = c) ∧
      ((described env values).descriptor (describedKey env values (some c))).parent
        = (env.types.superclass c).map (fun p => describedKey env values (some p)) ∧
      ((described env values).descriptor (describedKey env values (some c))).interfaces
        = (env.types.interfaces c).map (fun p => describedKey env values (some p)) ∧
      ∀ p ∈ env.types.supertypes c, described env (values ++ [some p]) = described env values) ∧
    (described env values).descriptorCount
      = {k | k ≠ ClassId.object ∧ k ≠ ClassId.metatype ∧ env.types.isArray k = false ∧
          ∃ v ∈ values, k = v.getD ClassId.object ∨
            env.types.HasAncestor (v.getD ClassId.object) k}.ncard := by
  have hside : env.types.SetsAside := henv ▸ hg.setsAside hids
  have hkey : ∀ values c, describedKey env values (some c) = Key.ofClass env.types c :=
    fun values c => describedKey_eq hac values (some c)
  have hqueries : ∀ values : List (Option ClassId),
      ∀ r ∈ values.map Request.describe, r.isQuery = true := fun values => by
    simp [Request.isQuery]
  obtain ⟨cs, haccount⟩ := exists_account hac (hqueries values)
  have hsound := (knows_after hac (values.map Request.describe)).1
  refine ⟨fun more v v' => ?_, ⟨haccount.creations, fun more => ?_⟩, fun v hv => ?_,
    fun c hc => ?_, descriptorCount_described hac hside values⟩
  · rw [describedKey_eq hac, describedKey_eq hac, Key.ofClass_eq_iff hside]
  · have hstays := haccount.stays (more.map Request.describe) (hqueries more)
    rwa [← List.map_append] at hstays
  · rw [describedKey_eq hac]
    exact has_described hac hv
  · simp only [hkey] at hc ⊢
    have hd := hsound.descriptor_eq hc
    obtain ⟨hparent, hinterfaces⟩ := Key.of_ofClass hside c
    refine ⟨Key.cls_ofClass_of_not_isArray hside, ?_, ?_, fun p hp => ?_⟩
    · rw [← hparent, ← hd]
      rfl
    · rw [← hinterfaces, ← hd]
      rfl
    · have hp' : Key.ofClass env.types p ∈ (described env values).descriptors.keys := by
        refine hsound.closed _ hc _ ?_
        rw [Key.supertypes_ofClass hside]
        exact List.mem_map_of_mem hp
      rw [described_append_singleton]
      exact congrArg Prod.snd (describe_of_has hp')

/-- `Bag` and its superclass `Box` have descriptors of their own, and the first is linked to the
second. -/
theorem describedKey_eq_iff_boxes :
    boxes.Reachable ∧ boxes.registry.HasFreshIds ∧ boxEnvironment.types.Acyclic ∧
      describedKey boxEnvironment [some 14] (some 14)
        = describedKey boxEnvironment ([some 14] ++ [some 17]) (some 15) ∧
      describedKey boxEnvironment [some 14] none
        ≠ describedKey boxEnvironment ([some 14] ++ [some 17]) (some 17) ∧
      ((described boxEnvironment [some 17]).descriptor
        (describedKey boxEnvironment [some 17] (some 17))).parent
          = some (describedKey boxEnvironment [some 17] (some 16)) ∧
      ∀ more, (described boxEnvironment [some 17]).Extends
        (described boxEnvironment ([some 17] ++ more)) := by
  obtain ⟨hsame, -⟩ := describedKey_eq_iff reachable_boxes hasFreshIds_boxes boxEnvironment rfl
    acyclic_boxes [some 14]
  obtain ⟨-, ⟨-, hstays⟩, hthere, hlinks, -⟩ := describedKey_eq_iff reachable_boxes
    hasFreshIds_boxes boxEnvironment rfl acyclic_boxes [some 17]
  have hbag := hlinks 17 (hthere (some 17) (List.mem_singleton_self _))
  refine ⟨reachable_boxes, hasFreshIds_boxes, acyclic_boxes, ?_, ?_, ?_, hstays⟩
  · exact (hsame [some 17] (some 14) (some 15)).2 (.inr (by decide +kernel))
  · rw [Ne, hsame [some 17] none (some 17)]
    decide +kernel
  · exact hbag.2.1

end Session

end ScriptSurface
