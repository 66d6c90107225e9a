import ScriptSurface.Proofs.Computation
import ScriptSurface.Proofs.Mapping.Bindings
import ScriptSurface.Proofs.Session.Walk
import ScriptSurface.Session.Descriptors
import ScriptSurface.Session.Mappings

/-!
# What sessions keep

A session keeps what it works out.  `Session.Sound` says that all of it is what the environment
calls for: a descriptor is `Descriptor.of` its key, a table is the one worked out afresh, and a
mapping is `Mapping.of` its class.  Memos, signatures and events have no part in it.

Every computation of a session keeps it sound and answers what the environment calls for, whatever
is already there: a hit is right by the invariant and a miss works it out.  Where the types involved
must have their descriptors, the state is one of which the session knows them (`Session.Knows`).
-/

namespace ScriptSurface

open Descriptor (Key)

/-- The own and inherited members of a type, worked out afresh. -/
def Environment.members (env : Environment) (key : Key) : MemberTable :=
  .merge ((Key.walk env.types key).map fun k => env.ownMembers k.cls)

namespace Session

/-- What a session keeps is what its environment calls for. -/
structure Sound (env : Environment) (s : Session) : Prop where
  /-- Descriptors go by what the host reports. -/
  descriptors : s.descriptors.Keeps (Descriptor.of env.types)
  /-- The base type has its descriptor. -/
  object : Key.object ∈ s.descriptors.keys
  /-- The array types have their descriptor. -/
  array : Key.array ∈ s.descriptors.keys
  /-- With a type, its supertypes have their descriptors. -/
  closed : ∀ key ∈ s.descriptors.keys, ∀ k ∈ Key.supertypes env.types key,
    k ∈ s.descriptors.keys
  /-- Own members are those discovered. -/
  ownTables : s.ownTables.Keeps fun key => env.ownMembers key.cls
  /-- Inherited members are those merged along the walk. -/
  mergedTables : s.mergedTables.Keeps env.members
  /-- Constructors are those declared. -/
  constructorTables : s.constructorTables.Keeps fun key => env.constructors key.cls
  /-- Mappings are composed along the hierarchy. -/
  mappings : s.mappings.Keeps (Mapping.of env.types env.limit)

/-- The session is sound, and the given types have their descriptors. -/
def Knows (env : Environment) (known : List Key) (s : Session) : Prop :=
  s.Sound env ∧ ∀ k ∈ known, k ∈ s.descriptors.keys

variable {env : Environment} {known : List Key} {s : Session} {key : Key}

theorem Knows.mono {known' : List Key} (h : s.Knows env known) (hsub : known' ⊆ known) :
    s.Knows env known' :=
  ⟨h.1, fun k hk => h.2 k (hsub hk)⟩

theorem mem_keys_start (h : HostTypes) (key : Key) :
    key ∈ (start h).descriptors.keys ↔ key = .object ∨ key = .array := by
  simp [start, Assoc.keys_put, or_comm]

theorem sound_start (env : Environment) : (start env.types).Sound env where
  descriptors := by
    unfold start
    exact .put (.put (Assoc.keeps_empty _) rfl) rfl
  object := (mem_keys_start env.types _).2 (.inl rfl)
  array := (mem_keys_start env.types _).2 (.inr rfl)
  closed key hkey k hk := by
    rcases (mem_keys_start env.types key).1 hkey with rfl | rfl
    · cases hk
    · exact (mem_keys_start env.types k).2 (.inl (List.mem_singleton.1 hk))
  ownTables := Assoc.keeps_empty _
  mergedTables := Assoc.keeps_empty _
  constructorTables := Assoc.keeps_empty _
  mappings := Assoc.keeps_empty _

/-! ### Memos, signatures and events -/

/-- Memos, signatures and events do not matter. -/
theorem Sound.trace (h : s.Sound env) (memos : Assoc MemberPath Memo) (signatures : Interner)
    (events : List Event) :
    Sound env { s with memos := memos, signatures := signatures, events := events } :=
  ⟨h.descriptors, h.object, h.array, h.closed, h.ownTables, h.mergedTables, h.constructorTables,
    h.mappings⟩

theorem ensures_note (e : Event) :
    Ensures (Knows env known) (note e) fun _ s => s.Knows env known :=
  .modify fun s hs => ⟨hs.1.trace s.memos s.signatures _, hs.2⟩

theorem ensures_intern (signature : Signature) :
    Ensures (Knows env known) (intern signature) fun _ s => s.Knows env known :=
  fun s hs => ⟨hs.1.trace s.memos _ _, hs.2⟩

theorem ensures_takeEvents : Ensures (Knows env known) takeEvents fun _ s => s.Knows env known :=
  fun s hs => ⟨hs.1.trace s.memos s.signatures [], hs.2⟩

/-! ### Descriptors -/

theorem Sound.descriptor_eq (h : s.Sound env) (hkey : key ∈ s.descriptors.keys) :
    s.descriptor key = Descriptor.of env.types key := by
  obtain ⟨d, hd⟩ := Option.isSome_iff_exists.1 ((Assoc.isSome_find?_iff _ _).2 hkey)
  rw [descriptor, hd]
  exact h.descriptors key d hd

theorem Sound.walk_eq (h : s.Sound env) (hkey : key ∈ s.descriptors.keys) :
    s.walk key = Key.walk env.types key := by
  refine levelsFrom_congr (S := {k | k ∈ s.descriptors.keys}) h.closed ?_ (by simpa using hkey)
  intro k hk
  rw [h.descriptor_eq hk, Descriptor.supertypes_of]

/-- A new descriptor keeps a session sound when its supertypes have theirs. -/
theorem Knows.putNew {d : Descriptor} (h : s.Knows env known)
    (hd : d = Descriptor.of env.types key) (hsupertypes : d.supertypes ⊆ known) :
    Knows env (key :: known) { s with descriptors := s.descriptors.putNew key d } := by
  obtain ⟨hsound, hknown⟩ := h
  have hold : ∀ k ∈ s.descriptors.keys, k ∈ (s.descriptors.putNew key d).keys := fun k hk =>
    (Assoc.mem_keys_putNew _ _ _ _).2 (.inr hk)
  refine ⟨⟨hsound.descriptors.putNew hd, hold _ hsound.object, hold _ hsound.array,
    fun k hk k' hk' => hold k' ?_, hsound.ownTables, hsound.mergedTables, hsound.constructorTables,
    hsound.mappings⟩, ?_⟩
  · rcases (Assoc.mem_keys_putNew _ _ _ _).1 hk with rfl | hk
    · rw [← Descriptor.supertypes_of, ← hd] at hk'
      exact hknown k' (hsupertypes hk')
    · exact hsound.closed k hk k' hk'
  · rintro k (_ | ⟨_, hk⟩)
    · exact (Assoc.mem_keys_putNew _ _ _ _).2 (.inl rfl)
    · exact hold k (hknown k hk)

/-- Describing each class of a list makes all of them known. -/
theorem ensures_mapM_describe {f : ClassId → SessionM Key} {l : List ClassId}
    (hf : ∀ c ∈ l, ∀ known, Ensures (Knows env known) (f c) fun key s =>
      key = Key.ofClass env.types c ∧ s.Knows env (key :: known)) :
    ∀ known, Ensures (Knows env known) (l.mapM f) fun keys s =>
      keys = l.map (Key.ofClass env.types) ∧ s.Knows env (keys ++ known) := by
  induction l with
  | nil => exact fun known => .pure fun s hs => ⟨rfl, hs⟩
  | cons c l ih =>
    intro known
    rw [List.mapM_cons]
    refine .bind (hf c List.mem_cons_self known) fun key => .of_and fun hkey => ?_
    refine .bind (ih (fun c hc => hf c (List.mem_cons_of_mem _ hc)) _) fun keys =>
      .of_and fun hkeys => .pure fun s hs => ⟨?_, hs.mono ?_⟩
    · rw [hkey, hkeys, List.map_cons]
    · intro k hk
      simp only [List.cons_append, List.mem_cons, List.mem_append] at hk ⊢
      tauto

/-- Describing a class that need not be there makes it known. -/
theorem ensures_optionMapM_describe {f : ClassId → SessionM Key} {o : Option ClassId}
    (hf : ∀ c ∈ o, ∀ known, Ensures (Knows env known) (f c) fun key s =>
      key = Key.ofClass env.types c ∧ s.Knows env (key :: known)) (known : List Key) :
    Ensures (Knows env known) (o.mapM f) fun key s =>
      key = o.map (Key.ofClass env.types) ∧ s.Knows env (key.toList ++ known) := by
  cases o with
  | none => exact .pure fun s hs => ⟨rfl, hs⟩
  | some c =>
    refine .bind (hf c rfl known) fun key => .of_and fun hkey => .pure fun s hs => ⟨?_, hs⟩
    rw [hkey]
    rfl

theorem ensures_describeWithin {rank : ClassId → ℕ}
    (hrank : ∀ c, ∀ p ∈ env.types.supertypes c, rank p < rank c) {n : ℕ} {c : ClassId}
    (hn : rank c < n) : ∀ known, Ensures (Knows env known) (describeWithin env.types n c)
      fun key s => key = Key.ofClass env.types c ∧ s.Knows env (key :: known) := by
  induction n generalizing c with
  | zero => omega
  | succ n ih =>
    intro known
    have hsupertypes : ∀ p ∈ env.types.supertypes c, rank p < n := by
      intro p hp
      have := hrank c p hp
      omega
    rw [describeWithin]
    refine .bind_get fun s hs => ?_
    split_ifs with hthere
    · rw [Assoc.contains_iff] at hthere
      refine .pure ?_
      rintro _ rfl
      exact ⟨rfl, hs.1, by simpa [hthere] using hs.2⟩
    · -- the base type and the array types are known from the start
      have hne : ∀ k ∈ s.descriptors.keys, Key.ofClass env.types c ≠ k := by
        rintro k hk rfl
        exact hthere ((Assoc.contains_iff _ _).2 hk)
      have hof := Descriptor.of_ofClass (hne _ hs.1.object) (hne _ hs.1.array)
      have hparent := ensures_optionMapM_describe (o := env.types.superclass c) fun p hp =>
        ih (hsupertypes p (by simp [HostTypes.supertypes, Option.mem_def.1 hp]))
      have hinterfaces := ensures_mapM_describe (l := env.types.interfaces c) fun p hp =>
        ih (hsupertypes p (by simp [HostTypes.supertypes, hp]))
      refine .of_state ?_ hs
      refine .bind (hparent known) fun parent => .of_and fun hparent => ?_
      refine .bind (hinterfaces _) fun interfaces => .of_and fun hinterfaces => ?_
      refine .bind (ensures_note _) fun _ => ?_
      -- by now all supertypes are known, so the new descriptor can be put down
      refine .bind (Q := fun _ s => s.Knows env
          (Key.ofClass env.types c :: (interfaces ++ (parent.toList ++ known))))
        (.modify fun s hs => hs.putNew ?_ ?_) fun _ => .pure fun s hs => ⟨rfl, hs.mono ?_⟩
      · rw [hof, hparent, hinterfaces]
      · rw [← List.append_assoc]
        exact List.subset_append_left _ _
      · intro k hk
        simp only [List.mem_cons, List.mem_append] at hk ⊢
        tauto

end Session

end ScriptSurface
