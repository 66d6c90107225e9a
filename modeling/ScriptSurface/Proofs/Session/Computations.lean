import ScriptSurface.Proofs.Member.Dispatch
import ScriptSurface.Proofs.Session.Requests

/-!
# What a session works out

A session works things out when it is first asked for them, and keeps what comes of it: descriptors,
tables, constructors, mappings, and what searches among overloads end with.  These are its
computations (`Session.Computation`), and it reports nearly all of them as events.

`Session.Computes` says that the way from one session to another consists of certain computations,
each of them made for the first time, and that these are what was reported.  Such ways go one after
the other (`Computes.trans`).  To find own members or constructors is one computation
(`computesOnly_ownMembers`, `computesOnly_constructors`), and to merge the members of a type takes
the own members along its walk (`computesOnly_members`).
-/

namespace ScriptSurface

open Descriptor (Key)

/-! ### What an environment calls for -/

/-- The members of a type in one of its tables. -/
def Environment.table (env : Environment) (key : Key) : Scope → MemberTable
  | .own => env.ownMembers key.cls
  | .merged => env.members key

/-- A member of a type. -/
def Environment.member? (env : Environment) (path : MemberPath) : Option Member :=
  ((env.table path.key path.scope).find? path.name).map fun slot =>
    ⟨path.name, path.key.cls, (Descriptor.of env.types path.key).name, slot⟩

/-- Whether an event reports that something was worked out. -/
def Event.isReport : Event → Bool
  | .registeredClass .. => false
  | .registeredArray .. => false
  | .interned _ => false
  | .tooDeep .. => false
  | _ => true

/-- A type and all types above it. -/
def Descriptor.Key.above (h : HostTypes) (key : Key) : Set Key :=
  {k | Relation.ReflTransGen (fun a b => b ∈ supertypes h a) key k}

namespace Session

/-! ### Computations -/

/-- Something that a session works out. -/
inductive Computation where
  /-- The descriptor of a type. -/
  | descriptor (key : Key)
  /-- The own members of a type. -/
  | ownMembers (key : Key)
  /-- The own and inherited members of a type. -/
  | members (key : Key)
  /-- The constructors of a type. -/
  | constructors (key : Key)
  /-- The mapping of a class. -/
  | mapping (c : ClassId)
  /-- A place for what is remembered of a member. -/
  | memo (path : MemberPath)
  /-- A search among the overloads of a member. -/
  | search (path : MemberPath) (signature : Signature)
deriving DecidableEq

/-- The table of a type that is worked out for a scope. -/
def Computation.table (key : Key) : Scope → Computation
  | .own => ownMembers key
  | .merged => members key

/-- The event that reports a computation.  Nothing is reported of members that are withheld, nor of
a place for what may be remembered. -/
def Computation.report? (env : Environment) : Computation → Option Event
  | descriptor key =>
    some (.createdDescriptor key.cls (env.types.name key.cls) (env.types.interfaces key.cls).length)
  | ownMembers key =>
    if env.isWithheld key.cls then none
    else some (.foundOwnMembers key.cls (Descriptor.of env.types key).name
      (env.ownMembers key.cls).size)
  | members key =>
    some (.mergedMembers key.cls (Descriptor.of env.types key).name
      (Key.walk env.types key).length (env.members key).size)
  | constructors key =>
    some (.foundConstructors key.cls (Descriptor.of env.types key).name
      (env.constructors key.cls).size)
  | mapping c =>
    some (.composedMapping c (env.types.name c) (Mapping.of env.types env.limit c).size)
  | memo _ => none
  | search path signature =>
    (env.member? path).map fun m =>
      .searchedOverloads m.ownerName m.name signature
        ((m.slot.select env.accepts signature).map Binding.signature)

/-- Whether a session keeps what came of a computation. -/
def Has (s : Session) : Computation → Prop
  | .descriptor key => key ∈ s.descriptors.keys
  | .ownMembers key => key ∈ s.ownTables.keys
  | .members key => key ∈ s.mergedTables.keys
  | .constructors key => key ∈ s.constructorTables.keys
  | .mapping c => c ∈ s.mappings.keys
  | .memo path => path ∈ s.memos.keys
  | .search path signature => signature ∈ (s.memo path).keys

/-- The events that report computations. -/
def reports (s : Session) : List Event := s.events.filter Event.isReport

/-- Whether what is remembered of members is what their searches end with. -/
def Recalls (env : Environment) (s : Session) : Prop :=
  ∀ path m, env.member? path = some m →
    ∃ requested, (s.memo path).Records env.accepts m.slot requested

/-- One session comes from another by some computations, in order, none of which was made
before. -/
structure Computes (env : Environment) (s : Session) (cs : List Computation) (s' : Session) :
    Prop where
  /-- No computation is made twice. -/
  nodup : cs.Nodup
  /-- No computation was made before. -/
  new : ∀ c ∈ cs, ¬s.Has c
  /-- What came of the computations is kept. -/
  has : ∀ c, s'.Has c ↔ s.Has c ∨ c ∈ cs
  /-- The computations are reported. -/
  reports : s'.reports = s.reports ++ cs.filterMap (Computation.report? env)
  /-- What is remembered stays right. -/
  recalls : s.Recalls env → s'.Recalls env

/-- One session comes from another by computations among the given ones. -/
def ComputesOnly (env : Environment) (s : Session) (A : Set Computation) (s' : Session) : Prop :=
  ∃ cs, s.Computes env cs s' ∧ ∀ c ∈ cs, c ∈ A

variable {env : Environment} {known : List Key} {key : Key} {c : Computation}
  {cs cs' : List Computation} {s s' s'' : Session} {A B : Set Computation}

namespace Computes

theorem idle (hhas : ∀ c, s'.Has c ↔ s.Has c) (hreports : s'.reports = s.reports)
    (hrecalls : s.Recalls env → s'.Recalls env) : s.Computes env [] s' where
  nodup := List.nodup_nil
  new := by simp
  has := by simpa using hhas
  reports := by simpa using hreports
  recalls := hrecalls

theorem refl (env : Environment) (s : Session) : s.Computes env [] s :=
  idle (fun _ => Iff.rfl) rfl id

theorem single (hnew : ¬s.Has c) (hhas : ∀ c', s'.Has c' ↔ s.Has c' ∨ c' = c)
    (hreports : s'.reports = s.reports ++ (c.report? env).toList)
    (hrecalls : s.Recalls env → s'.Recalls env) : s.Computes env [c] s' where
  nodup := List.nodup_singleton c
  new := by simpa using hnew
  has := by simpa using hhas
  reports := by
    rw [hreports]
    cases h : c.report? env <;> simp [h]
  recalls := hrecalls

theorem trans (h : s.Computes env cs s') (h' : s'.Computes env cs' s'') :
    s.Computes env (cs ++ cs') s'' where
  nodup := List.nodup_append.2 ⟨h.nodup, h'.nodup, fun c hc c' hc' heq =>
    h'.new c' hc' ((h.has c').2 (.inr (heq ▸ hc)))⟩
  new c hc hhas := by
    rcases List.mem_append.1 hc with hc | hc
    · exact h.new c hc hhas
    · exact h'.new c hc ((h.has c).2 (.inl hhas))
  has c := by rw [h'.has, h.has, List.mem_append, or_assoc]
  reports := by rw [h'.reports, h.reports, List.filterMap_append, List.append_assoc]
  recalls hs := h'.recalls (h.recalls hs)

theorem only (h : s.Computes env cs s') (hA : ∀ c ∈ cs, c ∈ A) : s.ComputesOnly env A s' :=
  ⟨cs, h, hA⟩

end Computes

namespace ComputesOnly

theorem idle (hhas : ∀ c, s'.Has c ↔ s.Has c) (hreports : s'.reports = s.reports)
    (hrecalls : s.Recalls env → s'.Recalls env) : s.ComputesOnly env A s' :=
  (Computes.idle hhas hreports hrecalls).only (by simp)

theorem refl (s : Session) : s.ComputesOnly env A s := (Computes.refl env s).only (by simp)

theorem mono (h : s.ComputesOnly env A s') (hA : A ⊆ B) : s.ComputesOnly env B s' := by
  obtain ⟨cs, h, hcs⟩ := h
  exact ⟨cs, h, fun c hc => hA (hcs c hc)⟩

theorem trans (h : s.ComputesOnly env A s') (h' : s'.ComputesOnly env A s'') :
    s.ComputesOnly env A s'' := by
  obtain ⟨cs, h, hcs⟩ := h
  obtain ⟨cs', h', hcs'⟩ := h'
  exact (h.trans h').only fun c hc => (List.mem_append.1 hc).elim (hcs c) (hcs' c)

/-- What was kept is kept. -/
theorem has (h : s.ComputesOnly env A s') (hc : s.Has c) : s'.Has c := by
  obtain ⟨cs, h, -⟩ := h
  exact (h.has c).2 (.inl hc)

theorem recalls (h : s.ComputesOnly env A s') (hs : s.Recalls env) : s'.Recalls env := by
  obtain ⟨cs, h, -⟩ := h
  exact h.recalls hs

/-- What is none of the computations is not added. -/
theorem not_has (h : s.ComputesOnly env A s') (hc : c ∉ A) (hnew : ¬s.Has c) : ¬s'.Has c := by
  obtain ⟨cs, h, hcs⟩ := h
  rw [h.has]
  exact not_or.2 ⟨hnew, fun hmem => hc (hcs c hmem)⟩

end ComputesOnly

/-- One more computation at the end of the way. -/
theorem ComputesOnly.store (h : s.ComputesOnly env A s') (hA : A ⊆ B) (hB : c ∈ B) (hc : c ∉ A)
    (hnew : ¬s.Has c) (hhas : ∀ c', s''.Has c' ↔ s'.Has c' ∨ c' = c)
    (hreports : s''.reports = s'.reports ++ (c.report? env).toList)
    (hrecalls : s'.Recalls env → s''.Recalls env) : s.ComputesOnly env B s'' ∧ s''.Has c :=
  ⟨(h.mono hA).trans
    ((Computes.single (h.not_has hc hnew) hhas hreports hrecalls).only (by simpa using hB)),
    (hhas c).2 (.inr rfl)⟩

/-! ### Signatures and other events -/

theorem computesOnly_note {e : Event} (he : e.isReport = false) (s : Session) :
    s.ComputesOnly env A (note e s).2 := by
  refine .idle (fun c => by cases c <;> rfl) ?_ fun h => h
  show (s.events ++ [e]).filter Event.isReport = s.events.filter Event.isReport
  rw [List.filter_append, List.filter_singleton, he]
  exact List.append_nil _

theorem computesOnly_intern (signature : Signature) (s : Session) :
    s.ComputesOnly env A (intern signature s).2 := by
  refine .idle (fun c => by cases c <;> rfl) ?_ fun h => h
  show List.filter Event.isReport (if _ then _ else _) = s.events.filter Event.isReport
  split
  · rw [List.filter_append]
    exact List.append_nil _
  · rfl

theorem computesOnly_noteTooDeep (limit : ℕ) (parts : List TypeExpr) (s : Session) :
    s.ComputesOnly env A (noteTooDeep limit parts s).2 := by
  refine Ensures.forM (P := s.ComputesOnly env A) (fun t s' hs' => ?_) parts s (.refl s)
  exact hs'.trans (computesOnly_note rfl s')

/-- Interning the signatures of some callables. -/
theorem ensures_forM_intern (l : List Executable) :
    Ensures (fun s' : Session => s'.Knows env known ∧ s.ComputesOnly env A s')
      (l.forM fun e => do let _ ← intern ⟨e.params⟩)
      fun _ s' => s'.Knows env known ∧ s.ComputesOnly env A s' :=
  .forM (fun e s' hs' => ⟨ensures_intern ⟨e.params⟩ s' hs'.1,
    hs'.2.trans (computesOnly_intern ⟨e.params⟩ s')⟩) l

theorem reports_append (s : Session) {e : Event} (he : e.isReport = true) :
    (s.events ++ [e]).filter Event.isReport = s.reports ++ [e] := by
  rw [List.filter_append, List.filter_singleton, he]
  rfl

/-- What is read off reports only. -/
theorem filterMap_events {β : Type} {g : Event → Option β}
    (hg : ∀ e, e.isReport = false → g e = none) (s : Session) :
    s.events.filterMap g = s.reports.filterMap g := by
  rw [reports, List.filterMap_filter]
  refine List.filterMap_congr fun e _ => ?_
  split_ifs with he
  · rfl
  · exact hg e (by simpa using he)

/-! ### What is put down -/

theorem has_put_ownTables (s : Session) (key : Key) (t : MemberTable) (events : List Event)
    (c : Computation) :
    Has { s with ownTables := s.ownTables.put key t, events := events } c ↔
      s.Has c ∨ c = .ownMembers key := by
  cases c <;> simp [Has, memo, Assoc.mem_keys_put, or_comm]

theorem has_put_mergedTables (s : Session) (key : Key) (t : MemberTable) (events : List Event)
    (c : Computation) :
    Has { s with mergedTables := s.mergedTables.put key t, events := events } c ↔
      s.Has c ∨ c = .members key := by
  cases c <;> simp [Has, memo, Assoc.mem_keys_put, or_comm]

theorem has_put_constructorTables (s : Session) (key : Key) (t : Overloads)
    (events : List Event) (c : Computation) :
    Has { s with constructorTables := s.constructorTables.put key t, events := events } c ↔
      s.Has c ∨ c = .constructors key := by
  cases c <;> simp [Has, memo, Assoc.mem_keys_put, or_comm]

theorem has_put_mappings (s : Session) (k : ClassId) (m : Mapping) (events : List Event)
    (c : Computation) :
    Has { s with mappings := s.mappings.put k m, events := events } c ↔
      s.Has c ∨ c = .mapping k := by
  cases c <;> simp [Has, memo, Assoc.mem_keys_put, or_comm]

theorem has_putNew_descriptors (s : Session) (key : Key) (d : Descriptor) (events : List Event)
    (c : Computation) :
    Has { s with descriptors := s.descriptors.putNew key d, events := events } c ↔
      s.Has c ∨ c = .descriptor key := by
  cases c <;> simp [Has, memo, Assoc.mem_keys_putNew, or_comm]

theorem memo_put (s : Session) (path path' : MemberPath) (m : Memo) (events : List Event) :
    memo { s with memos := s.memos.put path m, events := events } path'
      = if path = path' then m else s.memo path' := by
  unfold memo
  rw [Assoc.find?_put]
  split <;> rfl

/-! ### Members and constructors -/

theorem Knows.descriptor_eq (h : s.Knows env known) (hkey : key ∈ known) :
    s.descriptor key = Descriptor.of env.types key :=
  h.1.descriptor_eq (h.2 key hkey)

/-- What is kept is answered, and the session stays as it is. -/
theorem ownMembers_of_has (h : s.Has (.ownMembers key)) : (ownMembers env key s).2 = s := by
  obtain ⟨t, ht⟩ := Assoc.exists_find?_of_mem_keys h
  rw [ownMembers, bind_state, get_state, ht]
  rfl

theorem members_of_has (h : s.Has (.members key)) : (members env key s).2 = s := by
  obtain ⟨t, ht⟩ := Assoc.exists_find?_of_mem_keys h
  rw [members, bind_state, get_state, ht]
  rfl

theorem constructors_of_has (h : s.Has (.constructors key)) :
    (constructors env key s).2 = s := by
  obtain ⟨t, ht⟩ := Assoc.exists_find?_of_mem_keys h
  rw [constructors, bind_state, get_state, ht]
  rfl

/-- A session has what it is asked for afterwards, whether it was kept or is worked out. -/
theorem computesOnly_of_kept {α : Type} {m : SessionM α} (hkept : s.Has c → (m s).2 = s)
    (hnew : ¬s.Has c → s.ComputesOnly env A (m s).2 ∧ (m s).2.Has c) :
    s.ComputesOnly env A (m s).2 ∧ (m s).2.Has c := by
  by_cases h : s.Has c
  · rw [hkept h]
    exact ⟨.refl s, h⟩
  · exact hnew h

/-- Own members are worked out by themselves. -/
theorem computesOnly_ownMembers (hs : s.Knows env known) (hkey : key ∈ known) :
    s.ComputesOnly env {.ownMembers key} (ownMembers env key s).2 ∧
      (ownMembers env key s).2.Has (.ownMembers key) := by
  refine computesOnly_of_kept ownMembers_of_has fun hnew => ?_
  rw [ownMembers, bind_state, get_state, Assoc.find?_eq_none_of_notMem hnew]
  dsimp only
  split_ifs with hwithheld
  · refine (ComputesOnly.refl (A := ∅) s).store (by simp) rfl (by simp) hnew
      (has_put_ownTables s key _ s.events) ?_ id
    rw [Computation.report?, if_pos hwithheld]
    exact (List.append_nil _).symm
  · obtain ⟨hknows, honly⟩ := ensures_forM_intern (A := ∅) (env.eligibleMethods key.cls) s
      ⟨hs, .refl s⟩
    refine honly.store (by simp) rfl (by simp) hnew (has_put_ownTables _ key _ (_ ++ [_])) ?_ id
    rw [Computation.report?, if_neg hwithheld, ← hknows.descriptor_eq hkey]
    exact reports_append _ rfl

/-- Constructors are worked out by themselves. -/
theorem computesOnly_constructors (hs : s.Knows env known) (hkey : key ∈ known) :
    s.ComputesOnly env {.constructors key} (constructors env key s).2 ∧
      (constructors env key s).2.Has (.constructors key) := by
  refine computesOnly_of_kept constructors_of_has fun hnew => ?_
  rw [constructors, bind_state, get_state, Assoc.find?_eq_none_of_notMem hnew]
  obtain ⟨hknows, honly⟩ := ensures_forM_intern (A := ∅) (env.eligibleConstructors key.cls) s
    ⟨hs, .refl s⟩
  refine honly.store (by simp) rfl (by simp) hnew
    (has_put_constructorTables _ key _ (_ ++ [_])) ?_ id
  rw [Computation.report?, ← hknows.descriptor_eq hkey]
  exact reports_append _ rfl

/-- With a type, all types on its walk have their descriptors. -/
theorem Knows.walk (hs : s.Knows env known) (hkey : key ∈ known) :
    s.Knows env (key :: Key.walk env.types key) := by
  have hstart := hs.2 key hkey
  refine ⟨hs.1, List.forall_mem_cons.2 ⟨hstart, ?_⟩⟩
  exact mem_levelsFrom (S := {k | k ∈ s.descriptors.keys}) hs.1.closed (by simpa using hstart)

/-- The computations that go into the members of a type. -/
def membersParts (h : HostTypes) (key : Key) : Set Computation :=
  insert (.members key) (Computation.ownMembers '' {k | k ∈ Key.walk h key})

/-- To work out the members of a type takes the own members along its walk. -/
theorem computesOnly_members (hs : s.Knows env known) (hkey : key ∈ known) :
    s.ComputesOnly env (membersParts env.types key) (members env key s).2 ∧
      (members env key s).2.Has (.members key) := by
  refine computesOnly_of_kept members_of_has fun hnew => ?_
  set own : Set Computation := Computation.ownMembers '' {k | k ∈ Key.walk env.types key}
    with hown
  have hwalk : Ensures
      (fun s' : Session => s'.Knows env (key :: Key.walk env.types key) ∧ s.ComputesOnly env own s')
      ((Key.walk env.types key).mapM (ownMembers env)) fun tables s' =>
        tables = (Key.walk env.types key).map (fun k => env.ownMembers k.cls) ∧
          s'.Knows env (key :: Key.walk env.types key) ∧ s.ComputesOnly env own s' := by
    refine .mapM_eq fun k hk s' hs' => ?_
    obtain ⟨hanswer, hknows⟩ := ensures_ownMembers env k s' hs'.1
    have honly := (computesOnly_ownMembers hs'.1 (List.mem_cons_of_mem key hk)).1
    exact ⟨hanswer, hknows, hs'.2.trans (honly.mono (by rintro _ rfl; exact ⟨k, hk, rfl⟩))⟩
  obtain ⟨htables, hknows, honly⟩ := hwalk s ⟨hs.walk hkey, .refl s⟩
  rw [members, bind_state, get_state, Assoc.find?_eq_none_of_notMem hnew]
  dsimp only
  rw [bind_state, get_state, hs.1.walk_eq (hs.2 key hkey)]
  refine honly.store (Set.subset_insert _ _) (Set.mem_insert _ _) (by simp [hown]) hnew
    (has_put_mergedTables _ key _ (_ ++ [_])) ?_ id
  rw [Computation.report?, ← hknows.descriptor_eq List.mem_cons_self, Environment.members,
    ← htables]
  exact reports_append _ rfl

theorem computesOnly_table (hs : s.Knows env known) (hkey : key ∈ known) (scope : Scope) :
    s.ComputesOnly env (membersParts env.types key ∪ {.ownMembers key})
        (table env key scope s).2 ∧
      (table env key scope s).2.Has (.table key scope) := by
  cases scope with
  | own =>
    obtain ⟨honly, hhas⟩ := computesOnly_ownMembers hs hkey
    exact ⟨honly.mono Set.subset_union_right, hhas⟩
  | merged =>
    obtain ⟨honly, hhas⟩ := computesOnly_members hs hkey
    exact ⟨honly.mono Set.subset_union_left, hhas⟩

end Session

end ScriptSurface
