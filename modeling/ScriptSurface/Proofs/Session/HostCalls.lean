import ScriptSurface.Proofs.Member.HostCalls
import ScriptSurface.Proofs.Session.Invariants
import ScriptSurface.Proofs.Session.Surface

/-!
# The host calls of a session's members

The members and constructors that a session hands out bear the name of the type that was asked for
them, wherever they are declared.  That is so because a descriptor bears the name that the host
reports for its class, and all sessions keep to that (`Session.Named`), in any hierarchy.

With the names, `Session.uses_callOnce` says for all uses of members and constructors which call on
the host they make and what comes of it.
-/

namespace ScriptSurface.Session

open Descriptor (Key)

variable {env : Environment} {key : Key} {s : Session}

/-! ### Names -/

/-- A type has its descriptor, descriptors bear the names that the host reports, and constructors
are those declared. -/
structure Named (env : Environment) (key : Key) (s : Session) : Prop where
  /-- The type has its descriptor. -/
  known : key ∈ s.descriptors.keys
  /-- The base type has its descriptor. -/
  object : Key.object ∈ s.descriptors.keys
  /-- The array types have their descriptor. -/
  array : Key.array ∈ s.descriptors.keys
  /-- A descriptor bears the name of its class. -/
  names : ∀ k d, s.descriptors.find? k = some d → d.name = env.types.name k.cls
  /-- Constructors are those declared. -/
  constructorTables : s.constructorTables.Keeps fun k => env.constructors k.cls

theorem Named.name_descriptor (h : s.Named env key) :
    (s.descriptor key).name = env.types.name key.cls := by
  obtain ⟨d, hd⟩ := Assoc.exists_find?_of_mem_keys h.known
  rw [descriptor, hd]
  exact h.names key d hd

theorem named_start (env : Environment) : (start env.types).Named env .object where
  known := (mem_keys_start env.types _).2 (.inl rfl)
  object := (mem_keys_start env.types _).2 (.inl rfl)
  array := (mem_keys_start env.types _).2 (.inr rfl)
  names k d h := by
    have hsound := (sound_start env).descriptors k d h
    have hk := (mem_keys_start env.types k).1 (Assoc.mem_keys_of_find? h)
    rcases hk with rfl | rfl <;> exact congrArg Descriptor.name hsound
  constructorTables := Assoc.keeps_empty _

theorem onlyOfTables_named (env : Environment) (key : Key) : OnlyOfTables (Named env key) := by
  intro s s' h hs
  exact ⟨h.descriptors ▸ hs.known, h.descriptors ▸ hs.object, h.descriptors ▸ hs.array,
    h.descriptors ▸ hs.names, h.constructorTables ▸ hs.constructorTables⟩

theorem ignoresNotes_named (env : Environment) (key : Key) : IgnoresNotes (Named env key) :=
  (onlyOfTables_named env key).ignoresNotes

/-- A descriptor that is created for a class bears its name. -/
theorem Named.putNew (h : s.Named env key) {k : Key} {c : ClassId} (hk : k.cls = c)
    (parent : Option Key) (interfaces : List Key) :
    Named env key { s with
      descriptors := s.descriptors.putNew k ⟨env.types.name c, parent, interfaces⟩ } where
  known := (Assoc.mem_keys_putNew _ _ _ _).2 (.inr h.known)
  object := (Assoc.mem_keys_putNew _ _ _ _).2 (.inr h.object)
  array := (Assoc.mem_keys_putNew _ _ _ _).2 (.inr h.array)
  names j d hd := by
    change (s.descriptors.putNew k _).find? j = some d at hd
    rw [Assoc.find?_putNew] at hd
    split_ifs at hd with hj
    · subst hj
      rw [← Option.some.inj hd]
      cases hold : s.descriptors.find? k with
      | some old => exact h.names k old hold
      | none => rw [Option.getD_none, hk]
    · exact h.names j d hd
  constructorTables := h.constructorTables

theorem ensures_describeWithin_named (n : ℕ) (c : ClassId) :
    Ensures (Named env key) (describeWithin env.types n c) fun k s =>
      s.Named env key ∧ (0 < n → k ∈ s.descriptors.keys) := by
  have hnotes := ignoresNotes_named env key
  induction n generalizing c with
  | zero => exact .pure fun s hs => ⟨hs, fun hn => absurd hn (Nat.lt_irrefl 0)⟩
  | succ n ih =>
    have hkeeps : ∀ c, Keeps (Named env key) (describeWithin env.types n c) := fun c =>
      (ih c).mono (fun _ hs => hs) fun _ _ hs => hs.1
    rw [describeWithin]
    refine .bind_get fun s hs => ?_
    split_ifs with hkey
    · exact .pure fun s' heq => heq ▸ ⟨hs, fun _ => (Assoc.contains_iff _ _).1 hkey⟩
    · -- the types with a descriptor of their own have it from the start
      have hmem : Key.ofClass env.types c ∉ s.descriptors.keys := fun hmem =>
        hkey ((Assoc.contains_iff _ _).2 hmem)
      have hcls : (Key.ofClass env.types c).cls = c :=
        Key.cls_ofClass (fun h => hmem (h ▸ hs.object)) fun h => hmem (h ▸ hs.array)
      refine .of_state (.bind (Keeps.optionMapM hkeeps _) fun parent => ?_) hs
      refine .bind (Keeps.mapM hkeeps _) fun interfaces => .bind (hnotes.keeps_note _) fun _ => ?_
      refine .bind (Q := fun _ s => s.Named env key ∧ Key.ofClass env.types c ∈ s.descriptors.keys)
        (fun s hs => ⟨hs.putNew hcls parent interfaces, ?_⟩) fun _ => .pure fun s hs =>
          ⟨hs.1, fun _ => hs.2⟩
      exact (Assoc.mem_keys_putNew _ _ _ _).2 (.inl rfl)

/-- The class that was asked for has its descriptor afterwards. -/
theorem ensures_describe_named (c : ClassId) :
    Ensures (Named env key) (describe env.types c) fun k s =>
      k = Key.ofClass env.types c ∧ s.Named env k := by
  intro s hs
  obtain ⟨hnamed, hknown⟩ := ensures_describeWithin_named ClassId.count c s hs
  exact ⟨fst_describe env.types c s, { hnamed with known := hknown (by decide) }⟩

theorem isInvariant_named (env : Environment) (key : Key) : IsInvariant env (Named env key) where
  ignoresNotes := ignoresNotes_named env key
  describe c := (ensures_describeWithin_named _ c).mono (fun _ hs => hs) fun _ _ hs => hs.1
  ownMembers := (ignoresNotes_named env key).keeps_ownMembers fun _ _ hs => { hs with }
  members := (ignoresNotes_named env key).keeps_members
    ((ignoresNotes_named env key).keeps_ownMembers fun _ _ hs => { hs with }) fun _ _ _ hs =>
      { hs with }
  constructors := (ignoresNotes_named env key).keeps_constructors fun _ _ hs =>
    { hs with constructorTables := hs.constructorTables.put rfl }
  mapping := (onlyOfTables_named env key).keeps_mappingWithin _ _ _

/-- A member bears its name and that of the type that was asked. -/
theorem ensures_memberOf?_named (scope : Scope) (c : ClassId) (n : String) :
    Ensures (Named env key) (memberOf? env scope c n) fun found _ =>
      ∀ path m, found = some (path, m) →
        m.name = n ∧ m.ownerName = env.types.name (Key.ofClass env.types c).cls := by
  refine .bind (ensures_describe_named c) fun k => .of_and fun hk => ?_
  subst hk
  refine .bind (Q := fun found _ => ∀ m, found = some m → m.name = n ∧
    m.ownerName = env.types.name (Key.ofClass env.types c).cls) ?_ fun m => .pure ?_
  · refine .bind ((isInvariant_named env _).keeps_table _ scope) fun t => .bind_get fun s hs => ?_
    refine .pure fun _ _ m hm => ?_
    obtain ⟨slot, -, rfl⟩ := Option.map_eq_some_iff.1 hm
    exact ⟨rfl, hs.name_descriptor⟩
  · rintro _ hm path m' hfound
    obtain ⟨m', rfl, heq⟩ := Option.map_eq_some_iff.1 hfound
    obtain ⟨-, rfl⟩ := Prod.mk.inj heq
    exact hm m' rfl

/-! ### Constructors -/

/-- The name of a class with its constructors. -/
def constructorsOf (env : Environment) (c : ClassId) : SessionM (String × Overloads) := do
  let key ← describe env.types c
  let t ← constructors env key
  return (((← get).descriptor key).name, t)

/-- The constructors a session answers are those declared. -/
theorem ensures_constructors_named (env : Environment) (key : Key) :
    Ensures (Named env key) (constructors env key) fun t s =>
      t = env.constructors key.cls ∧ s.Named env key := by
  have hnotes := ignoresNotes_named env key
  unfold constructors
  refine .bind_get fun s hs => ?_
  split
  · next t ht => exact .pure fun s' heq => heq ▸ ⟨hs.constructorTables key t ht, hs⟩
  · refine .of_state (.bind (hnotes.keeps_forM_intern _) fun _ => .bind_get fun s hs => ?_) hs
    refine .of_state (.bind (hnotes.keeps_note _) fun _ s hs => ⟨rfl, ?_⟩) hs
    exact { hs with constructorTables := hs.constructorTables.put rfl }

theorem answer_constructorsOf (env : Environment) (requests : List Request) (c : ClassId) :
    answer env requests (constructorsOf env c)
      = (env.types.name (Key.ofClass env.types c).cls,
          env.constructors (Key.ofClass env.types c).cls) := by
  have hanswer : Ensures (Named env .object) (constructorsOf env c) fun found _ =>
      found = (env.types.name (Key.ofClass env.types c).cls,
        env.constructors (Key.ofClass env.types c).cls) := by
    refine .bind (ensures_describe_named c) fun key => .of_and fun hkey => ?_
    subst hkey
    refine .bind (ensures_constructors_named env _) fun t => .of_and fun ht => ?_
    refine .bind_get fun s hs => .pure fun _ _ => ?_
    rw [ht, hs.name_descriptor]
  exact hanswer _ ((isInvariant_named env .object).after (named_start env) requests)

/-! ### Uses -/

/-- The member behind a name of a table bears its names. -/
theorem exists_memberOf?_named (env : Environment) (requests : List Request) (scope : Scope)
    (c : ClassId) {n : String} {slot : Slot}
    (hslot : (answer env requests (tableOf env scope c)).find? n = some slot) :
    ∃ path m, answer env requests (memberOf? env scope c n) = some (path, m) ∧ m.slot = slot ∧
      m.name = n ∧ m.ownerName = env.types.name (Key.ofClass env.types c).cls := by
  rw [← slot_memberOf?, Option.map_eq_some_iff] at hslot
  obtain ⟨⟨path, m⟩, hfound, hm⟩ := hslot
  have hnamed := ensures_memberOf?_named scope c n _
    ((isInvariant_named env .object).after (named_start env) requests)
  exact ⟨path, m, hfound, hm, hnamed path m hfound⟩

/-- **A use makes one call on the host or none.**  Whatever was asked before and whatever the host
does, reading, writing and calling what is behind a name of a class, and creating an instance of it,
make the one call on the host that is selected, if one is, and what comes of the use is what comes
of that call.  If none is, the use is declined and the host left alone.  What the host raises comes
with the name of the class that was asked and the name used. -/
theorem uses_callOnce {ω σ ε : Type} (env : Environment) (requests : List Request) (scope : Scope)
    (c : ClassId) (host : Host ω σ ε) (receiver value : Option ω) (signature : Signature)
    (args : List (Option ω)) (state : σ) :
    (∀ n slot, (answer env requests (tableOf env scope c)).find? n = some slot →
      ∃ path m, answer env requests (memberOf? env scope c n) = some (path, m) ∧
        Member.CallsOnce host (env.types.name (Key.ofClass env.types c).cls) n
          (slot.readDemand receiver).call?
          (m.read host receiver) (m.read host.logged receiver) state ∧
        Member.CallsOnce host (env.types.name (Key.ofClass env.types c).cls) n
          (slot.writeDemand receiver value).call?
          (m.write host receiver value) (m.write host.logged receiver value) state ∧
        ∀ earlier : List (Member.Call ω),
          Member.CallsOnce host (env.types.name (Key.ofClass env.types c).cls) n
            (slot.callDemand (slot.select env.accepts signature) (signature.display env.types)
              receiver args).call?
            (m.invoke env host signature receiver args (m.memoAfter env host earlier)).1
            (m.invoke env host.logged signature receiver args (m.memoAfter env host earlier)).1
            state) ∧
    answer env requests (constructorsOf env c)
        = (env.types.name (Key.ofClass env.types c).cls,
            env.constructors (Key.ofClass env.types c).cls) ∧
      Member.CallsOnce host (env.types.name (Key.ofClass env.types c).cls)
        Executable.constructorName
        ((env.constructors (Key.ofClass env.types c).cls).constructDemand signature args).call?
        (Member.construct host (env.types.name (Key.ofClass env.types c).cls)
          (env.constructors (Key.ofClass env.types c).cls) signature args)
        (Member.construct host.logged (env.types.name (Key.ofClass env.types c).cls)
          (env.constructors (Key.ofClass env.types c).cls) signature args) state := by
  refine ⟨fun n slot hslot => ?_, answer_constructorsOf env requests c,
    Member.callsOnce_construct host _ _ signature args state⟩
  obtain ⟨path, m, hfound, rfl, rfl, hname⟩ := exists_memberOf?_named env requests scope c hslot
  rw [← hname]
  exact ⟨path, m, hfound, m.callsOnce_read host receiver state,
    m.callsOnce_write host receiver value state, fun earlier =>
      m.callsOnce_invoke host env host earlier signature receiver args state⟩

end ScriptSurface.Session
