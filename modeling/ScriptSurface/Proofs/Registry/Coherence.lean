import ScriptSurface.Proofs.Registry.Registration

/-!
# The tables agree

A registry looks up names and array classes in tables of their own, which are kept up next to the
entries.  `Registry.Coherent` says that the tables agree with the entries: a component has the array
class that is registered for it, and a name stands for the class that was registered last under it.
The third part of it is that all entries have ids that were handed out, so that the next id is new.

What comes in is one entry at a time, in all three tables (`Registry.Enters`): a class that is
committed, or an array class whose component had none.  That leaves the tables coherent
(`Registry.Coherent.enters`).
-/

namespace ScriptSurface

namespace Registry

variable {r r' : Registry} {a c c' : ClassId} {e : ClassEntry} {name : String}

/-! ### Ids -/

/-- Whether an id is reserved or has been handed out. -/
def IsHandedOut (r : Registry) (c : ClassId) : Prop :=
  c.index.toNat < ClassId.firstUser.index.toNat + r.reserved

theorem IsHandedOut.of_le (h : r.IsHandedOut c) (hle : r.reserved ≤ r'.reserved) :
    r'.IsHandedOut c :=
  lt_of_lt_of_le h (Nat.add_le_add_left hle _)

theorem toNat_next (hids : (reserve r).2.HasFreshIds) :
    r.next.index.toNat = ClassId.firstUser.index.toNat + r.reserved :=
  UInt32.toNat_ofNat_of_lt' hids

theorem not_isHandedOut_next (hids : (reserve r).2.HasFreshIds) : ¬r.IsHandedOut r.next := by
  unfold IsHandedOut
  rw [toNat_next hids]
  exact Nat.lt_irrefl _

theorem isHandedOut_reserve_next (hids : (reserve r).2.HasFreshIds) :
    (reserve r).2.IsHandedOut r.next := by
  have hreserved : (reserve r).2.reserved = r.reserved + 1 := rfl
  unfold IsHandedOut
  rw [toNat_next hids, hreserved]
  omega

/-! ### Kinds -/

theorem ne_array_of_isArray_eq_false {kind : Kind} (h : kind.isArray = false) (c : ClassId) :
    kind ≠ .array c := by
  rintro rfl
  cases h

theorem kind_of_entryOf? (h : r.entryOf? c = some e) : r.types.kind c = e.kind := by
  show ((r.entryOf? c).map ClassEntry.kind).getD .concrete = _
  rw [h]
  rfl

/-- What is known to be an array class is registered. -/
theorem exists_entry_of_kind (h : r.types.kind a = .array c) :
    ∃ e, r.entryOf? a = some e ∧ e.kind = .array c := by
  cases he : r.entryOf? a with
  | none =>
    have hkind : ((r.entryOf? a).map ClassEntry.kind).getD .concrete = .array c := h
    rw [he] at hkind
    cases hkind
  | some e => exact ⟨e, rfl, (kind_of_entryOf? he).symm.trans h⟩

/-- At the start there are two array classes. -/
theorem eq_of_kind_initial (h : initial.types.kind a = .array c) :
    c = ClassId.object ∧ a = ClassId.objectArray ∨
      c = ClassId.string ∧ a = ClassId.stringArray := by
  have hall : ∀ x ∈ initial.entries.toList, x.2.kind.isArray = true →
      x.2.kind = .array ClassId.object ∧ x.1 = ClassId.objectArray ∨
        x.2.kind = .array ClassId.string ∧ x.1 = ClassId.stringArray := by
    decide +kernel
  obtain ⟨e, he, hkind⟩ := exists_entry_of_kind h
  have harray : e.kind.isArray = true := by
    rw [hkind]
    rfl
  rcases hall (a, e) ((Assoc.mem_toList_iff _).2 he) harray with ⟨hc, ha⟩ | ⟨hc, ha⟩
  · exact .inl ⟨Kind.array.inj (hkind.symm.trans hc), ha⟩
  · exact .inr ⟨Kind.array.inj (hkind.symm.trans hc), ha⟩

/-! ### One more entry -/

/-- One registry has one entry more than another, in all its tables. -/
structure Enters (r r' : Registry) (c : ClassId) (e : ClassEntry) : Prop where
  /-- Nothing was registered under the id. -/
  new : r.entryOf? c = none
  /-- The component of an array class that comes in had none. -/
  unasked : ∀ k, e.kind = .array k → r.array? k = none
  /-- Now the entry is registered. -/
  entries : r'.entries = r.entries.put c e
  /-- Its name stands for it. -/
  byName : r'.byName = r.byName.put e.name c
  /-- Its component has it as array class, if it is one. -/
  array? : ∀ k, r'.array? k = if e.kind = .array k then some c else r.array? k

/-- A class comes in when it is registered. -/
theorem enters_register (hc : r.entryOf? c = none) (he : e.kind.isArray = false) :
    r.Enters (r.register c e) c e := by
  have hkind := ne_array_of_isArray_eq_false he
  exact ⟨hc, fun k hk => absurd hk (hkind k), rfl, rfl, fun k => (if_neg (hkind k)).symm⟩

theorem arrayOf_of_array? (h : r.array? c = some a) : arrayOf c r = (a, r) := by
  unfold arrayOf
  rw [h]

namespace Enters

theorem toList (h : r.Enters r' c e) :
    r'.entries.toList = r.entries.toList ++ [(c, e)] := by
  rw [h.entries]
  exact Assoc.toList_put_of_find?_eq_none h.new e

theorem keys (h : r.Enters r' c e) : r'.entries.keys = r.entries.keys ++ [c] := by
  unfold Assoc.keys
  rw [h.toList, List.map_append]
  rfl

theorem size (h : r.Enters r' c e) : r'.size = r.size + 1 := by
  unfold Registry.size Assoc.size
  rw [h.toList, List.length_append]
  rfl

theorem entryOf? (h : r.Enters r' c e) (k : ClassId) :
    r'.entryOf? k = if c = k then some e else r.entryOf? k := by
  unfold Registry.entryOf?
  rw [h.entries]
  exact r.entries.find?_put c k e

theorem kind (h : r.Enters r' c e) (k : ClassId) :
    r'.types.kind k = if c = k then e.kind else r.types.kind k := by
  show ((r'.entryOf? k).map ClassEntry.kind).getD .concrete = _
  rw [h.entryOf?]
  split_ifs <;> rfl

theorem lookup (h : r.Enters r' c e) (name : String) :
    r'.lookup name = if e.name = name then some c else r.lookup name := by
  unfold Registry.lookup
  rw [h.byName]
  exact r.byName.find?_put e.name name c

/-- An array class that comes in is that of its component. -/
theorem array?_of_array (h : r.Enters r' a (.array c name)) (k : ClassId) :
    r'.array? k = if c = k then some a else r.array? k :=
  (h.array? k).trans (if_congr ⟨Kind.array.inj, congrArg Kind.array⟩ rfl rfl)

/-- Any other class that comes in is the array class of no component. -/
theorem array?_of_class (h : r.Enters r' c e) (he : e.kind.isArray = false) :
    r'.array? = r.array? :=
  funext fun k => (h.array? k).trans (if_neg (ne_array_of_isArray_eq_false he k))

end Enters

/-! ### Coherent tables -/

/-- The class that was registered last under a name, going by the entries. -/
def lastNamed? (r : Registry) (name : String) : Option ClassId :=
  (r.entries.toList.reverse.find? fun x => x.2.name = name).map Prod.fst

/-- The tables of a registry agree. -/
structure Coherent (r : Registry) : Prop where
  /-- Entries have ids that were handed out. -/
  numbered : ∀ c e, r.entryOf? c = some e → r.IsHandedOut c
  /-- A component has the array class that is registered for it. -/
  arrays : ∀ c a, r.array? c = some a ↔ r.types.kind a = .array c
  /-- A name stands for the class that was registered last under it. -/
  names : ∀ name, r.lookup name = r.lastNamed? name

namespace Coherent

theorem entryOf?_next (h : r.Coherent) (hids : (reserve r).2.HasFreshIds) :
    r.entryOf? r.next = none := by
  cases he : r.entryOf? r.next with
  | none => rfl
  | some e => exact absurd (h.numbered _ e he) (not_isHandedOut_next hids)

theorem exists_entry_of_array? (h : r.Coherent) (ha : r.array? c = some a) :
    ∃ e, r.entryOf? a = some e ∧ e.kind = .array c :=
  exists_entry_of_kind ((h.arrays c a).1 ha)

/-- An array class has one component. -/
theorem eq_of_array? (h : r.Coherent) (ha : r.array? c = some a) (ha' : r.array? c' = some a) :
    c = c' :=
  Kind.array.inj (((h.arrays c a).1 ha).symm.trans ((h.arrays c' a).1 ha'))

/-- A name stands for the class that was registered last under it. -/
theorem lookup_eq_some_iff (h : r.Coherent) :
    r.lookup name = some c ↔ ∃ before e after,
      r.entries.toList = before ++ (c, e) :: after ∧ e.name = name ∧
        ∀ x ∈ after, x.2.name ≠ name := by
  rw [h.names, lastNamed?, Option.map_eq_some_iff]
  constructor
  · rintro ⟨⟨c', e⟩, hfind, rfl⟩
    obtain ⟨hname, after, before, hsplit, hafter⟩ := List.find?_eq_some_iff_append.1 hfind
    refine ⟨before.reverse, e, after.reverse, ?_, by simpa using hname, fun x hx => ?_⟩
    · have hreverse := congrArg List.reverse hsplit
      simpa using hreverse
    · simpa using hafter x (List.mem_reverse.1 hx)
  · rintro ⟨before, e, after, hsplit, hname, hafter⟩
    refine ⟨(c, e), List.find?_eq_some_iff_append.2
      ⟨by simpa using hname, after.reverse, before.reverse, ?_, fun x hx => ?_⟩, rfl⟩
    · rw [hsplit]
      simp
    · simpa using hafter x (List.mem_reverse.1 hx)

/-- A name stands for nothing if nothing was registered under it. -/
theorem lookup_eq_none_iff (h : r.Coherent) :
    r.lookup name = none ↔ ∀ x ∈ r.entries.toList, x.2.name ≠ name := by
  rw [h.names, lastNamed?, Option.map_eq_none_iff, List.find?_eq_none]
  simp

/-! ### What happens to the tables -/

/-- One more entry leaves the tables coherent. -/
theorem enters (h : r.Coherent) (henters : r.Enters r' c e) (hc : r'.IsHandedOut c)
    (hle : r.reserved ≤ r'.reserved) : r'.Coherent where
  numbered k e' he' := by
    rw [henters.entryOf?] at he'
    split_ifs at he' with hk
    · exact hk ▸ hc
    · exact (h.numbered k e' he').of_le hle
  arrays k a := by
    rw [henters.array?, henters.kind]
    have hold := h.arrays k a
    by_cases hkind : e.kind = .array k
    · -- what comes in is the array class of `k`, which had none
      rw [henters.unasked k hkind] at hold
      rw [if_pos hkind, Option.some.injEq]
      split_ifs with hca
      · exact iff_of_true hca hkind
      · exact iff_of_false hca fun ha => Option.some_ne_none a (hold.2 ha).symm
    · rw [if_neg hkind, hold]
      split_ifs with hca
      · -- nothing was known of the id that the entry comes in under
        refine iff_of_false (fun ha => ?_) hkind
        obtain ⟨e', he', -⟩ := exists_entry_of_kind ha
        rw [← hca, henters.new] at he'
        cases he'
      · rfl
  names name := by
    rw [henters.lookup, lastNamed?, henters.toList, find?_reverse_append_singleton]
    by_cases hname : e.name = name
    · rw [if_pos hname, if_pos (by simpa using hname)]
      rfl
    · rw [if_neg hname, if_neg (by simpa using hname)]
      exact h.names name

theorem reserve (h : r.Coherent) : (Registry.reserve r).2.Coherent where
  numbered c e he := (h.numbered c e he).of_le (Nat.le_succ _)
  arrays := h.arrays
  names := h.names

/-- Asking for an array class answers the one that is there, or brings it in under a new id. -/
theorem arrayOf_cases (h : r.Coherent) (hids : (Registry.arrayOf c r).2.HasFreshIds) :
    (∃ a, r.array? c = some a ∧ Registry.arrayOf c r = (a, r)) ∨
      r.Enters (Registry.arrayOf c r).2 (Registry.arrayOf c r).1 (.array c (r.name c)) ∧
        ¬r.IsHandedOut (Registry.arrayOf c r).1 ∧
        (Registry.arrayOf c r).2.IsHandedOut (Registry.arrayOf c r).1 := by
  cases hc : r.array? c with
  | some a => exact .inl ⟨a, rfl, arrayOf_of_array? hc⟩
  | none =>
    -- the id is handed out first, then the entry comes in under it, then the component gets it
    have hnew : Registry.arrayOf c r = (r.next,
        ((Registry.reserve r).2.register r.next (.array c (r.name c))).recordArray c r.next) := by
      unfold Registry.arrayOf
      rw [hc]
      rfl
    rw [hnew] at hids ⊢
    have hids : (Registry.reserve r).2.HasFreshIds := hids
    refine .inr ⟨⟨h.entryOf?_next hids, fun k hk => Kind.array.inj hk ▸ hc, rfl, rfl, fun k => ?_⟩,
      not_isHandedOut_next hids, isHandedOut_reserve_next hids⟩
    have hkind : (ClassEntry.array c (r.name c)).kind = .array k ↔ c = k :=
      ⟨Kind.array.inj, congrArg Kind.array⟩
    rw [if_congr hkind rfl rfl]
    exact r.arrays.find?_put c k r.next

/-- The array class that is asked for is that of the component then. -/
theorem array?_arrayOf (h : r.Coherent) (hids : (Registry.arrayOf c r).2.HasFreshIds) :
    (Registry.arrayOf c r).2.array? c = some (Registry.arrayOf c r).1 := by
  rcases h.arrayOf_cases hids with ⟨a, ha, heq⟩ | ⟨henters, -⟩
  · rw [heq, ha]
  · rw [henters.array?_of_array, if_pos rfl]

/-- Asking for an array class leaves the tables coherent. -/
theorem arrayOf (h : r.Coherent) (hids : (Registry.arrayOf c r).2.HasFreshIds) :
    (Registry.arrayOf c r).2.Coherent := by
  rcases h.arrayOf_cases hids with ⟨a, -, heq⟩ | ⟨henters, -, hout⟩
  · rwa [heq]
  · exact h.enters henters hout (r.reserved_arrayOf_le c)

end Coherent

theorem byName_initial :
    initial.byName = .ofList (initial.entries.toList.map fun x => (x.2.name, x.1)) := by
  have hentries : initial.entries.toList
      = builtins.mapIdx fun i e => ((⟨UInt32.ofNat i⟩ : ClassId), e) := by
    rw [entries_initial]
    rfl
  -- to provide a type does the same to the names whether it is an array class or not
  have hprovide : ∀ (r : Registry) (x : ClassId × ClassEntry),
      r.byName.put x.2.name x.1 = (r.provide x.1 x.2).byName := by
    intro r x
    unfold provide
    split <;> rfl
  rw [hentries, Assoc.ofList, List.foldl_map]
  exact (List.foldl_hom byName hprovide).symm

/-- At the start the tables agree. -/
theorem coherent_initial : initial.Coherent where
  numbered c e he := by
    have hlt : ∀ x ∈ builtins.mapIdx fun i e => ((⟨UInt32.ofNat i⟩ : ClassId), e),
        initial.IsHandedOut x.1 := by
      unfold IsHandedOut
      decide
    exact hlt (c, e) (mem_of_entryOf?_initial he)
  arrays c a := by
    have harrays : initial.arrays.toList
        = [(ClassId.object, ClassId.objectArray), (ClassId.string, ClassId.stringArray)] := by
      decide +kernel
    constructor
    · intro ha
      have hmem : (c, a) ∈ initial.arrays.toList := (Assoc.mem_toList_iff _).2 ha
      rw [harrays, List.mem_pair, Prod.mk.injEq, Prod.mk.injEq] at hmem
      rcases hmem with ⟨rfl, rfl⟩ | ⟨rfl, rfl⟩ <;> decide +kernel
    · intro hkind
      rcases eq_of_kind_initial hkind with ⟨rfl, rfl⟩ | ⟨rfl, rfl⟩ <;> decide +kernel
  names name := by
    unfold lookup lastNamed?
    rw [byName_initial, Assoc.find?_ofList, ← List.map_reverse, List.find?_map, Option.map_map]
    rfl

end Registry

end ScriptSurface
