import ScriptSurface.Proofs.Assoc
import ScriptSurface.Proofs.Registry.Commit

/-!
# Registrations

A `Registration` is a registry with the drafts that are under way.  What can happen to it is a
`Registration.Step`: a draft is started, declares something more, is committed or given up, or an
array class is asked for, by itself or through an erasure.

The types of a registry that was filled so are `HostTypes.Regular`, as long as ids have not run out
(`Registration.Reachable.regular`).  The invariant behind this, `Registry.Sound`, says that every
entry names its supertypes and that the entries under reserved ids are still those of the start; it
survives a new array class and a commit because neither has a reserved id.
-/

namespace ScriptSurface

/-! ### Steps -/

/-- A registry with the drafts that are under way. -/
structure Registration where
  /-- The registry. -/
  registry : Registry
  /-- The drafts. -/
  drafts : List Draft

/-- A draft declares something more. -/
inductive Draft.Edit : Draft → Draft → Prop where
  /-- A type parameter. -/
  | addTypeParam (d : Draft) (stamp : Stamp) (name : String) (bound : TypeExpr) :
    Edit d (d.addTypeParam stamp name bound).2
  /-- The superclass. -/
  | extend (d : Draft) (parent : TypeExpr) : Edit d (d.extend parent)
  /-- An interface. -/
  | implement (d : Draft) (interface : TypeExpr) : Edit d (d.implement interface)
  /-- A field. -/
  | addField (d : Draft) (f : FieldDecl) : Edit d (d.addField f)
  /-- A method. -/
  | addMethod (d : Draft) (m : Executable) : Edit d (d.addMethod m)
  /-- A constructor. -/
  | addConstructor (d : Draft) (e : Executable) : Edit d (d.addConstructor e)
  /-- A prefix to be cut off member names. -/
  | stripPrefix (d : Draft) (text : String) : Edit d (d.stripPrefix text)

namespace Registration

/-- What can happen to a registry and its drafts. -/
inductive Step : Registration → Registration → Prop where
  /-- A class or an interface is started. -/
  | start (r : Registry) (drafts : List Draft) {kind : Kind}
    (hkind : kind = .concrete ∨ kind = .interface) (name : String) :
    Step ⟨r, drafts⟩ ⟨(Draft.start kind name r).2, (Draft.start kind name r).1 :: drafts⟩
  /-- A draft declares something more. -/
  | edit (r : Registry) (before after : List Draft) {d d' : Draft} (hd : d.Edit d') :
    Step ⟨r, before ++ d :: after⟩ ⟨r, before ++ d' :: after⟩
  /-- A draft is committed. -/
  | commit (r : Registry) (before after : List Draft) (d : Draft) :
    Step ⟨r, before ++ d :: after⟩ ⟨(d.commit r).2, before ++ after⟩
  /-- A draft is given up. -/
  | abandon (r : Registry) (before after : List Draft) (d : Draft) :
    Step ⟨r, before ++ d :: after⟩ ⟨r, before ++ after⟩
  /-- An array class is asked for. -/
  | arrayOf (r : Registry) (drafts : List Draft) (component : ClassId) :
    Step ⟨r, drafts⟩ ⟨(Registry.arrayOf component r).2, drafts⟩
  /-- A type is erased. -/
  | erase (r : Registry) (drafts : List Draft) (t : TypeExpr) :
    Step ⟨r, drafts⟩ ⟨(Registry.erase t r).2, drafts⟩

/-- What can come of a new registry. -/
def Reachable : Registration → Prop := Relation.ReflTransGen Step ⟨Registry.initial, []⟩

end Registration

/-! ### The invariant -/

/-- An array class has only the universal base type above it. -/
def ClassEntry.IsPlainArray (e : ClassEntry) : Prop :=
  e.superclass = some ClassId.object ∧ e.interfaces = []

namespace Registry

/-- No id has been handed out twice. -/
def HasFreshIds (r : Registry) : Prop :=
  ClassId.firstUser.index.toNat + r.reserved ≤ ClassId.count

/-- What holds of a registry as long as ids have not run out. -/
structure Sound (r : Registry) : Prop where
  /-- Entries name their supertypes. -/
  names : ∀ c e, r.entryOf? c = some e → e.NamesSupertypes
  /-- Array classes extend the universal base type and nothing else. -/
  array : ∀ c e, r.entryOf? c = some e → e.kind.isArray = true → e.IsPlainArray
  /-- The types every host provides are as they were. -/
  reserved : ∀ c, c.isReserved = true → r.entryOf? c = initial.entryOf? c

theorem entryOf?_register (r : Registry) (c : ClassId) (e : ClassEntry) (k : ClassId) :
    (r.register c e).entryOf? k = if c = k then some e else r.entryOf? k :=
  r.entries.find?_put c k e

/-- A class registered under an id that is not reserved keeps a registry sound. -/
theorem Sound.register {r : Registry} (h : r.Sound) {c : ClassId} {e : ClassEntry}
    (hc : c.isReserved = false) (hnames : e.NamesSupertypes)
    (harray : e.kind.isArray = true → e.IsPlainArray) : (r.register c e).Sound where
  names k e' he' := by
    rw [entryOf?_register] at he'
    split_ifs at he'
    · exact Option.some.inj he' ▸ hnames
    · exact h.names k e' he'
  array k e' he' := by
    rw [entryOf?_register] at he'
    split_ifs at he'
    · exact Option.some.inj he' ▸ harray
    · exact h.array k e' he'
  reserved k hk := by
    have hne : c ≠ k := by
      rintro rfl
      rw [hc] at hk
      cases hk
    rw [entryOf?_register, if_neg hne, h.reserved k hk]

/-- An id that is handed out before ids run out is not reserved. -/
theorem isReserved_next {r : Registry} (h : (reserve r).2.HasFreshIds) :
    r.next.isReserved = false := by
  have hlt : ClassId.firstUser.index.toNat + r.reserved < 2 ^ 32 := h
  rw [ClassId.isReserved, decide_eq_false_iff_not, UInt32.not_lt, UInt32.le_iff_toNat_le, next,
    UInt32.toNat_ofNat_of_lt' hlt]
  exact Nat.le_add_right _ _

theorem entryOf?_recordArray (r : Registry) (c a k : ClassId) :
    (r.recordArray c a).entryOf? k = r.entryOf? k := rfl

/-- Asking for an array class changes nothing or registers the class under a new id and as that of
its component. -/
theorem arrayOf_cases (r : Registry) (c : ClassId) :
    (arrayOf c r).2 = r ∨ (arrayOf c r).2 =
      ((reserve r).2.register r.next (.array c (r.name c))).recordArray c r.next := by
  unfold arrayOf
  split
  · exact .inl rfl
  · exact .inr rfl

theorem reserved_arrayOf_le (r : Registry) (c : ClassId) :
    r.reserved ≤ (arrayOf c r).2.reserved := by
  rcases r.arrayOf_cases c with h | h
  · exact (congrArg Registry.reserved h).ge
  · rw [h]
    exact Nat.le_succ _

theorem HasFreshIds.of_le {r r' : Registry} (h : r'.HasFreshIds) (hle : r.reserved ≤ r'.reserved) :
    r.HasFreshIds :=
  (Nat.add_le_add_left hle _).trans h

theorem Sound.arrayOf {r : Registry} (h : r.Sound) {c : ClassId}
    (hids : (arrayOf c r).2.HasFreshIds) : (arrayOf c r).2.Sound := by
  rcases r.arrayOf_cases c with heq | heq
  · rwa [heq]
  · rw [heq] at hids ⊢
    have hreserve : (reserve r).2.Sound := ⟨h.names, h.array, h.reserved⟩
    obtain ⟨hnames, harray, hreserved⟩ := hreserve.register (isReserved_next hids)
      (ClassEntry.namesSupertypes_bare _ _ _) fun _ => ⟨rfl, rfl⟩
    exact ⟨hnames, harray, hreserved⟩

theorem AddsArrays.reserved_le {r r' : Registry} (h : r.AddsArrays r') :
    r.reserved ≤ r'.reserved := by
  induction h with
  | refl => exact le_rfl
  | tail _ hstep ih =>
    obtain ⟨c, rfl⟩ := hstep
    exact ih.trans (reserved_arrayOf_le _ c)

theorem Sound.addsArrays {r r' : Registry} (h : r.Sound) (hadds : r.AddsArrays r')
    (hids : r'.HasFreshIds) : r'.Sound := by
  induction hadds with
  | refl => exact h
  | tail hadds hstep ih =>
    obtain ⟨c, rfl⟩ := hstep
    exact (ih (hids.of_le (reserved_arrayOf_le _ c))).arrayOf hids

/-- A commit under an id that is not reserved keeps a registry sound. -/
theorem Sound.commit {r : Registry} (h : r.Sound) {d : Draft} (hid : d.id.isReserved = false)
    (hkind : d.kind.isArray = false) (hids : (d.commit r).2.HasFreshIds) :
    (d.commit r).2.Sound := by
  obtain ⟨r', e, hadds, hcommit, hek, -, hnames⟩ := d.exists_commit_eq r
  rw [hcommit] at hids ⊢
  refine (h.addsArrays hadds hids).register hid hnames fun harray => ?_
  rw [hek, hkind] at harray
  cases harray

theorem reserved_commit_le (r : Registry) (d : Draft) : r.reserved ≤ (d.commit r).2.reserved := by
  obtain ⟨r', e, hadds, hcommit, -⟩ := d.exists_commit_eq r
  rw [hcommit]
  exact hadds.reserved_le

/-! ### The types every host provides -/

/-- The types every host provides, by their reserved ids. -/
theorem entries_initial :
    initial.entries = .ofList (builtins.mapIdx fun i e => ((⟨UInt32.ofNat i⟩ : ClassId), e)) := by
  have hprovide : ∀ (r : Registry) (x : ClassId × ClassEntry),
      r.entries.put x.1 x.2 = (r.provide x.1 x.2).entries := by
    intro r x
    unfold provide
    split <;> rfl
  exact (List.foldl_hom entries hprovide).symm

theorem mem_of_entryOf?_initial {c : ClassId} {e : ClassEntry} (h : initial.entryOf? c = some e) :
    (c, e) ∈ builtins.mapIdx fun i e => ((⟨UInt32.ofNat i⟩ : ClassId), e) := by
  unfold entryOf? at h
  rw [entries_initial] at h
  exact Assoc.mem_of_find?_ofList h

theorem builtins_sound : ∀ e ∈ builtins, e.NamesSupertypes ∧
    (e.kind.isArray = true → e.IsPlainArray) := by
  have hclass : ClassEntry.NamesSupertypes
      { ClassEntry.bare "Class" .concrete (some ClassId.object) with
        typeParams := [⟨"T", TypeExpr.object⟩] } :=
    ⟨(ClassEntry.namesSupertypes_bare "Class" .concrete (some ClassId.object)).superclass, .nil⟩
  simp [builtins, ClassEntry.array, ClassEntry.namesSupertypes_bare, ClassEntry.IsPlainArray,
    hclass]
  simp [ClassEntry.bare, Kind.isArray]

theorem sound_initial : initial.Sound := by
  have hmem : ∀ c e, initial.entryOf? c = some e → e ∈ builtins := by
    intro c e he
    obtain ⟨i, hi, heq⟩ := List.mem_mapIdx.1 (mem_of_entryOf?_initial he)
    exact (Prod.mk.inj heq).2 ▸ List.getElem_mem hi
  exact ⟨fun c e he => (builtins_sound e (hmem c e he)).1,
    fun c e he => (builtins_sound e (hmem c e he)).2, fun _ _ => rfl⟩

/-- Nothing is above the universal base type and the primitive types. -/
theorem supertypes_initial {c : ClassId} (hc : c = ClassId.object ∨ c.isPrimitive = true) :
    initial.types.supertypes c = [] := by
  have hnone : ∀ x ∈ builtins.mapIdx fun i e => ((⟨UInt32.ofNat i⟩ : ClassId), e),
      (x.1 = ClassId.object ∨ x.1.isPrimitive = true) →
        x.2.superclass = none ∧ x.2.interfaces = [] := by
    decide
  cases he : initial.entryOf? c with
  | none => simp [HostTypes.supertypes, types, he]
  | some e =>
    obtain ⟨hsuper, hinterfaces⟩ : e.superclass = none ∧ e.interfaces = [] :=
      hnone (c, e) (mem_of_entryOf?_initial he) hc
    simp [HostTypes.supertypes, types, he, hsuper, hinterfaces]

theorem isReserved_of_isPrimitive {c : ClassId}
    (hc : c = ClassId.object ∨ c.isPrimitive = true) : c.isReserved = true := by
  rcases hc with rfl | hc
  · decide
  · rw [ClassId.isPrimitive, Bool.and_eq_true, decide_eq_true_iff, decide_eq_true_iff] at hc
    rw [ClassId.isReserved, decide_eq_true_iff]
    exact UInt32.lt_of_le_of_lt hc.2 (by decide)

/-- The types of a sound registry are regular. -/
theorem Sound.regular {r : Registry} (h : r.Sound) : r.types.Regular where
  superclass c := by
    cases he : r.entryOf? c with
    | none => simp [types, he]
    | some e => simpa [types, he] using (h.names c e he).superclass
  interfaces c := by
    cases he : r.entryOf? c with
    | none => simp [types, he]
    | some e => simpa [types, he] using (h.names c e he).interfaces
  eq_object c hc p hp := by
    rw [Mapping.isTrivial, Bool.or_eq_true, Bool.or_eq_true, decide_eq_true_iff] at hc
    rcases hc with hc | harray
    · have hsame : r.types.supertypes c = initial.types.supertypes c := by
        simp [HostTypes.supertypes, types, h.reserved c (isReserved_of_isPrimitive hc)]
      rw [hsame, supertypes_initial hc] at hp
      cases hp
    · cases he : r.entryOf? c with
      | none => simp [HostTypes.supertypes, types, he] at hp
      | some e =>
        have hkind : e.kind.isArray = true := by
          simpa [HostTypes.isArray, types, he] using harray
        obtain ⟨hsuper, hinterfaces⟩ := h.array c e he hkind
        simpa [HostTypes.supertypes, types, he, hsuper, hinterfaces] using hp
  typeParams_object := by
    show ((r.entryOf? ClassId.object).map ClassEntry.typeParams).getD [] = []
    rw [h.reserved ClassId.object rfl]
    rfl

end Registry

/-! ### Runs -/

theorem Draft.Edit.same {d d' : Draft} (h : d.Edit d') : d'.id = d.id ∧ d'.kind = d.kind := by
  cases h with
  | stripPrefix text =>
    unfold Draft.stripPrefix
    split
    · split_ifs <;> exact ⟨rfl, rfl⟩
    · exact ⟨rfl, rfl⟩
  | _ => exact ⟨rfl, rfl⟩

namespace Registration

/-- What holds of a registration as long as ids have not run out. -/
structure Sound (g : Registration) : Prop where
  /-- The registry is sound. -/
  registry : g.registry.Sound
  /-- No draft has a reserved id or is for an array class. -/
  drafts : ∀ d ∈ g.drafts, d.id.isReserved = false ∧ d.kind.isArray = false

theorem Step.reserved_le {g g' : Registration} (h : g.Step g') :
    g.registry.reserved ≤ g'.registry.reserved := by
  cases h with
  | start r drafts hkind name => exact Nat.le_succ _
  | edit | abandon => exact le_rfl
  | commit r before after d => exact r.reserved_commit_le d
  | arrayOf r drafts component => exact r.reserved_arrayOf_le component
  | erase r drafts t => exact (Registry.ensures_erase r t r .refl).reserved_le

theorem Sound.step {g g' : Registration} (hg : g.Sound) (h : g.Step g')
    (hids : g'.registry.HasFreshIds) : g'.Sound := by
  obtain ⟨hregistry, hdrafts⟩ := hg
  -- what is left of the drafts when one of them is committed or given up
  have hrest {before after : List Draft} {d : Draft} {P : Draft → Prop}
      (h : ∀ x ∈ before ++ d :: after, P x) : ∀ x ∈ before ++ after, P x :=
    fun x hx => h x (((List.sublist_cons_self d after).append_left before).subset hx)
  cases h with
  | start r drafts hk name =>
    refine ⟨⟨hregistry.names, hregistry.array, hregistry.reserved⟩, ?_⟩
    rintro d (_ | ⟨_, hd⟩)
    · refine ⟨Registry.isReserved_next hids, ?_⟩
      rcases hk with rfl | rfl <;> rfl
    · exact hdrafts d hd
  | @edit r before after d d' hd =>
    refine ⟨hregistry, fun x hx => ?_⟩
    simp only [List.mem_append, List.mem_cons] at hx hdrafts
    rcases hx with hx | rfl | hx
    · exact hdrafts x (.inl hx)
    · rw [hd.same.1, hd.same.2]
      exact hdrafts d (.inr (.inl rfl))
    · exact hdrafts x (.inr (.inr hx))
  | commit r before after d =>
    obtain ⟨hid, hkind⟩ := hdrafts d (List.mem_append_right _ List.mem_cons_self)
    exact ⟨hregistry.commit hid hkind hids, hrest hdrafts⟩
  | abandon r before after d => exact ⟨hregistry, hrest hdrafts⟩
  | arrayOf r drafts component => exact ⟨hregistry.arrayOf hids, hdrafts⟩
  | erase r drafts t =>
    exact ⟨hregistry.addsArrays (Registry.ensures_erase r t r .refl) hids, hdrafts⟩

theorem Reachable.sound {g : Registration} (h : g.Reachable) (hids : g.registry.HasFreshIds) :
    g.Sound := by
  induction h with
  | refl => exact ⟨Registry.sound_initial, by simp⟩
  | tail _ hstep ih => exact (ih (hids.of_le hstep.reserved_le)).step hstep hids

/-- As long as ids have not run out, the types of a registry are regular. -/
theorem Reachable.regular {g : Registration} (h : g.Reachable)
    (hids : g.registry.HasFreshIds) : g.registry.types.Regular :=
  (h.sound hids).registry.regular

end Registration

/-! ### Going through the entries -/

namespace Registry

variable {r : Registry}

theorem entryOf?_cases (r : Registry) (c : ClassId) :
    r.entryOf? c = none ∨ ∃ e, r.entryOf? c = some e ∧ (c, e) ∈ r.entries.toList := by
  cases he : r.entryOf? c with
  | none => exact .inl rfl
  | some e => exact .inr ⟨e, rfl, (Assoc.mem_toList_iff _).2 he⟩

/-- Where all classes are below classes with smaller ids, the hierarchy is acyclic. -/
theorem acyclic_of_index_lt
    (h : ∀ x ∈ r.entries.toList, ∀ p ∈ x.2.interfaces ++ x.2.superclass.toList,
      p.index.toNat < x.1.index.toNat) : r.types.Acyclic := by
  refine acyclic_of_measure (fun c => c.index.toNat) fun c p hp => ?_
  rcases r.entryOf?_cases c with he | ⟨e, he, hmem⟩
  · simp [HostTypes.supertypes, types, he] at hp
  · refine h (c, e) hmem p ?_
    simpa [HostTypes.supertypes, types, he] using hp

theorem exists_entry_of_mem_declaredSupertypes {c : ClassId} {t : TypeExpr}
    (ht : t ∈ r.types.declaredSupertypes c) :
    ∃ e, (c, e) ∈ r.entries.toList ∧ r.types.typeParams c = e.typeParams ∧
      t ∈ e.genericSuperclass.toList ++ e.genericInterfaces := by
  rcases r.entryOf?_cases c with he | ⟨e, he, hmem⟩
  · simp [HostTypes.declaredSupertypes, types, he] at ht
  · refine ⟨e, hmem, by simp [types, he], ?_⟩
    simpa [HostTypes.declaredSupertypes, types, he] using ht

/-- Where each entry names its supertypes in full and in its own terms, all classes do. -/
theorem wellDeclared_of_entries
    (h : ∀ x ∈ r.entries.toList, ∀ e ∈ x.2.genericSuperclass.toList ++ x.2.genericInterfaces,
      (∃ p ∈ e.rawClass?, e.args.length = (r.types.typeParams p).length) ∧
        ∀ v ∈ e.vars, v.owner = x.1 ∧ v.index.toNat < x.2.typeParams.length) :
    r.types.WellDeclared where
  names c t ht := by
    obtain ⟨e, hmem, -, hte⟩ := exists_entry_of_mem_declaredSupertypes ht
    obtain ⟨p, hp, hargs⟩ := (h (c, e) hmem t hte).1
    exact ⟨p, hp, hargs⟩
  own c t ht v hv := by
    obtain ⟨e, hmem, hparams, hte⟩ := exists_entry_of_mem_declaredSupertypes ht
    rw [HostTypes.Declares, hparams]
    exact (h (c, e) hmem t hte).2 v hv

end Registry

end ScriptSurface
