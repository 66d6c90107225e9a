import ScriptSurface.Proofs.Member.Accessors
import ScriptSurface.Proofs.Session.Requests

/-!
# The members a session answers

In an acyclic hierarchy, whatever was asked before, the members a session answers for a class are
the merge along the walk of a first-in first-out queue (`membersOf_isMerge`).  Where own members are
merged again because the walk comes by a type twice, everything but the callables of overloads is as
if each type were merged once, and the callables are too exactly if those declared last are
(`membersOf_eq_firstVisits_iff`).  In `diamond` they are not.

The method of a getter or setter among the members is not hidden itself and has an overload there
(`membersOf_overload?_of_hasAccessor`).  The overload can be hidden all the same, and the property
still runs the method: in `veiled` a class hides a getter that it inherits.
-/

namespace ScriptSurface

open Descriptor (Key)

/-! ### A hierarchy that comes by a type twice -/

/-- A method `label()` that a class declares. -/
def labelMethod (c : ClassId) : Executable :=
  { Executable.declareMethod "label" [] (.plain ClassId.string .anonymous) 0 with declaring := c }

/-- A host where class 18 extends class 17, both implement interface 16, and the last two declare a
method `label()`. -/
def diamond : HostTypes where
  kind c := if c = 16 then .interface else .concrete
  name c := c.digits
  superclass c := if c = 17 then some ClassId.object else if c = 18 then some 17 else none
  interfaces c := if c = 17 ∨ c = 18 then [16] else []
  typeParams _ := []
  genericSuperclass c :=
    if c = 17 then some TypeExpr.object else if c = 18 then some (.plain 17 .anonymous) else none
  genericInterfaces c := if c = 17 ∨ c = 18 then [.plain 16 .anonymous] else []
  fields _ := []
  methods c := if c = 16 ∨ c = 17 then [labelMethod c] else []
  constructors _ := []
  strippedPrefixes _ := []

/-- The environment of `diamond` with raw names and default options. -/
def diamondEnvironment : Environment := .plain diamond

theorem acyclic_diamond : diamondEnvironment.types.Acyclic := by
  refine acyclic_of_measure (fun c => if c = 18 then 2 else if c = 17 then 1 else 0) ?_
  intro c p hp
  simp only [HostTypes.supertypes, diamondEnvironment, Environment.plain, diamond] at hp
  split_ifs at hp <;> simp_all <;> rcases hp with rfl | rfl <;> decide

theorem dequeues_diamond :
    Dequeues (Key.supertypes diamondEnvironment.types) [Key.ofClass diamondEnvironment.types 18]
      [.general 18, .general 16, .general 17, .general 16, .object] :=
  .take (.take (.take (.take (.take .done))))

/-! ### A hierarchy that hides an accessor -/

/-- A method `getSize()` that a class declares, hidden or not. -/
def sizeMethod (c : ClassId) (hidden : Bool) : Executable :=
  { Executable.declareMethod "getSize" [] (.plain ClassId.int .anonymous) 0 with
    declaring := c
    hidden := hidden }

/-- A host where class 16 declares a method `getSize()` and class 17, which extends it, declares the
same method as hidden. -/
def veiled : HostTypes where
  kind _ := .concrete
  name c := c.digits
  superclass c := if c = 17 then some 16 else none
  interfaces _ := []
  typeParams _ := []
  genericSuperclass c := if c = 17 then some (.plain 16 .anonymous) else none
  genericInterfaces _ := []
  fields _ := []
  methods c :=
    if c = 16 then [sizeMethod 16 false] else if c = 17 then [sizeMethod 17 true] else []
  constructors _ := []
  strippedPrefixes _ := []

/-- The environment of `veiled` with raw names, where methods are gone through as declared. -/
def veiledEnvironment : Environment :=
  { Environment.plain veiled with
    options := { Options.default with discoveryOrder := .declared } }

theorem acyclic_veiled : veiledEnvironment.types.Acyclic := by
  refine acyclic_of_measure (fun c => if c = 17 then 1 else 0) ?_
  intro c p hp
  simp only [HostTypes.supertypes, veiledEnvironment, Environment.plain, veiled] at hp
  split_ifs at hp with hc
  · obtain rfl : p = 16 := by simpa using hp
    rw [hc]
    decide
  · simp at hp

theorem dequeues_veiled :
    Dequeues (Key.supertypes veiledEnvironment.types) [Key.ofClass veiledEnvironment.types 17]
      [.general 17, .general 16] :=
  .take (.take .done)

theorem hasAccessor_veiled :
    MemberTable.HasAccessor
      (.merge ([Key.general 17, .general 16].map fun k => veiledEnvironment.ownMembers k.cls))
      "size" (veiledEnvironment.bindMethod 16 (sizeMethod 16 false)) :=
  ⟨_, rfl, .inl rfl⟩

namespace Session

/-! ### The merge along the walk -/

/-- The members of a class are the merge along its walk, in whatever order own members are kept. -/
theorem membersOf_isMerge (env : Environment) (hac : env.types.Acyclic) (requests : List Request)
    (c : ClassId) :
    ∃ walk, Dequeues (Key.supertypes env.types) [Key.ofClass env.types c] walk ∧
      (answer env requests (tableOf env .merged c)).IsMerge
        (walk.map fun k => env.ownMembers k.cls) ∧
      ∀ own, List.Forall₂ (fun t t' => t.toList.Perm t'.toList)
          (walk.map fun k => env.ownMembers k.cls) own →
        ∀ n, (MemberTable.merge own).find? n
          = (answer env requests (tableOf env .merged c)).find? n := by
  rw [answer_tableOf_merged hac]
  refine ⟨_, Key.dequeues_walk hac c, MemberTable.isMerge_merge _, fun own hperm n => ?_⟩
  have hmerge := MemberTable.isMerge_merge
    ((Key.walk env.types (Key.ofClass env.types c)).map fun k => env.ownMembers k.cls)
  exact (hmerge.find?_eq_of_perm (MemberTable.isMerge_merge own) hperm n).symm

theorem membersOf_isMerge_diamond :
    diamondEnvironment.types.Acyclic ∧
      ∃ walk, Dequeues (Key.supertypes diamondEnvironment.types)
          [Key.ofClass diamondEnvironment.types 18] walk ∧
        (answer diamondEnvironment [.table .own 17, .mapping 18]
            (tableOf diamondEnvironment .merged 18)).IsMerge
          (walk.map fun k => diamondEnvironment.ownMembers k.cls) := by
  refine ⟨acyclic_diamond, ?_⟩
  obtain ⟨walk, hwalk, hmerge, -⟩ := membersOf_isMerge diamondEnvironment acyclic_diamond
    [.table .own 17, .mapping 18] 18
  exact ⟨walk, hwalk, hmerge⟩

/-! ### First visits -/

/-- Second visits can only change the callables of overloads, and they change nothing exactly if for
each signature the callable declared last on the walk is the one declared last on the walk of first
visits. -/
theorem membersOf_eq_firstVisits_iff (env : Environment) (hac : env.types.Acyclic)
    (requests : List Request) (c : ClassId) {walk : List Key}
    (hwalk : Dequeues (Key.supertypes env.types) [Key.ofClass env.types c] walk) :
    (answer env requests (tableOf env .merged c)).Agrees
        (MemberTable.merge (walk.eraseDups.map fun k => env.ownMembers k.cls)) ∧
      ((∀ n, (answer env requests (tableOf env .merged c)).find? n
          = (MemberTable.merge (walk.eraseDups.map fun k => env.ownMembers k.cls)).find? n) ↔
        ∀ n σ, lastOverload? (fun k => env.ownMembers k.cls) walk n σ
          = lastOverload? (fun k => env.ownMembers k.cls) walk.eraseDups n σ) := by
  have hown : ∀ k : Key, (env.ownMembers k.cls).WellKeyed := fun k =>
    env.wellKeyed_ownMembers k.cls
  have hmerge := MemberTable.isMerge_merge (walk.map fun k => env.ownMembers k.cls)
  have honce := MemberTable.isMerge_merge (walk.eraseDups.map fun k => env.ownMembers k.cls)
  obtain rfl := hwalk.unique (Key.dequeues_walk hac c)
  rw [answer_tableOf_merged hac]
  exact ⟨hmerge.agrees_eraseDups hown honce, hmerge.find?_eq_iff hown honce⟩

theorem membersOf_eq_firstVisits_iff_diamond :
    diamondEnvironment.types.Acyclic ∧
      Dequeues (Key.supertypes diamondEnvironment.types) [Key.ofClass diamondEnvironment.types 18]
        [.general 18, .general 16, .general 17, .general 16, .object] ∧
      (answer diamondEnvironment [.table .merged 17] (tableOf diamondEnvironment .merged 18)).Agrees
        (MemberTable.merge
          ([Key.general 18, .general 16, .general 17, .general 16, .object].eraseDups.map fun k =>
            diamondEnvironment.ownMembers k.cls)) :=
  ⟨acyclic_diamond, dequeues_diamond,
    (membersOf_eq_firstVisits_iff diamondEnvironment acyclic_diamond [.table .merged 17] 18
      dequeues_diamond).1⟩

theorem answer_diamond (requests : List Request) :
    answer diamondEnvironment requests (tableOf diamondEnvironment .merged 18)
      = .merge ([Key.general 18, .general 16, .general 17, .general 16, .object].map fun k =>
          diamondEnvironment.ownMembers k.cls) := by
  rw [answer_tableOf_merged acyclic_diamond,
    dequeues_diamond.unique (Key.dequeues_walk acyclic_diamond 18)]
  rfl

/-- Second visits are not harmless: from class 18 of `diamond` the second visit of interface 16 puts
its `label()` in the place of that of class 17. -/
theorem not_membersOf_eq_firstVisits :
    ¬∀ (env : Environment) (c : ClassId) (walk : List Key), env.types.Acyclic →
      Dequeues (Key.supertypes env.types) [Key.ofClass env.types c] walk →
      ∀ n, (answer env [] (tableOf env .merged c)).find? n
        = (MemberTable.merge (walk.eraseDups.map fun k => env.ownMembers k.cls)).find? n := by
  intro h
  have hlabel := h diamondEnvironment 18 _ acyclic_diamond dequeues_diamond "label"
  rw [answer_diamond] at hlabel
  have hdeclaring : ∀ {t t' : MemberTable}, t.find? "label" = t'.find? "label" →
      (t.overload? "label" ⟨[]⟩).map (fun b => b.executable.declaring)
        = (t'.overload? "label" ⟨[]⟩).map fun b => b.executable.declaring := by
    intro t t' heq
    rw [MemberTable.overload?, MemberTable.overload?, heq]
  exact absurd (hdeclaring hlabel) (by decide +kernel)

/-! ### Accessors -/

/-- **Accessors run methods that are not hidden.**  A type on the walk has the method of a getter or
setter among its own members, and the method is not hidden.  So there is an overload of its name and
signature among the members.  That overload is hidden exactly if one of the types on the walk has an
own one that is. -/
theorem membersOf_overload?_of_hasAccessor (env : Environment) (hac : env.types.Acyclic)
    (requests : List Request) (c : ClassId) {walk : List Key}
    (hwalk : Dequeues (Key.supertypes env.types) [Key.ofClass env.types c] walk)
    {n : String} {b : Binding}
    (hb : (answer env requests (tableOf env .merged c)).HasAccessor n b) :
    b.executable.hidden = false ∧
      (∃ k ∈ walk, env.Exposes k.cls b.executable) ∧
      ∀ k ∈ walk, env.Exposes k.cls b.executable →
        ∃ o, (answer env requests (tableOf env .merged c)).overload?
            (env.methodName k.cls b.executable) b.signature = some o ∧
          (o.hidden = true ↔ ∃ k' ∈ walk, ∃ o',
            (env.ownMembers k'.cls).overload? (env.methodName k.cls b.executable) b.signature
              = some o' ∧ o'.hidden = true) := by
  obtain rfl := hwalk.unique (Key.dequeues_walk hac c)
  rw [answer_tableOf_merged hac] at hb ⊢
  have hmerge := MemberTable.isMerge_merge
    ((Key.walk env.types (Key.ofClass env.types c)).map fun k => env.ownMembers k.cls)
  exact env.overload?_of_hasAccessor hmerge hb

theorem answer_veiled (requests : List Request) :
    answer veiledEnvironment requests (tableOf veiledEnvironment .merged 17)
      = .merge ([Key.general 17, .general 16].map fun k => veiledEnvironment.ownMembers k.cls) := by
  rw [answer_tableOf_merged acyclic_veiled,
    dequeues_veiled.unique (Key.dequeues_walk acyclic_veiled 17)]
  rfl

theorem membersOf_overload?_of_hasAccessor_veiled :
    veiledEnvironment.types.Acyclic ∧
      Dequeues (Key.supertypes veiledEnvironment.types) [Key.ofClass veiledEnvironment.types 17]
        [.general 17, .general 16] ∧
      (answer veiledEnvironment [.table .own 16]
        (tableOf veiledEnvironment .merged 17)).HasAccessor "size"
          (veiledEnvironment.bindMethod 16 (sizeMethod 16 false)) ∧
      ∃ o, (answer veiledEnvironment [.table .own 16]
          (tableOf veiledEnvironment .merged 17)).overload? "getSize" ⟨[]⟩ = some o ∧
        o.hidden = true := by
  have hb : (answer veiledEnvironment [.table .own 16]
      (tableOf veiledEnvironment .merged 17)).HasAccessor "size"
        (veiledEnvironment.bindMethod 16 (sizeMethod 16 false)) := by
    rw [answer_veiled]
    exact hasAccessor_veiled
  obtain ⟨-, -, hoverload⟩ := membersOf_overload?_of_hasAccessor veiledEnvironment acyclic_veiled
    [.table .own 16] 17 dequeues_veiled hb
  have hexposes : veiledEnvironment.Exposes 16 (sizeMethod 16 false) :=
    ⟨rfl, List.mem_singleton_self _⟩
  obtain ⟨o, ho, hhidden⟩ := hoverload (.general 16) (by decide) hexposes
  exact ⟨acyclic_veiled, dequeues_veiled, hb, o, ho,
    hhidden.2 ⟨.general 17, by decide, _, rfl, rfl⟩⟩

/-- The overload of an accessor's method can be hidden: class 17 of `veiled` has the getter of
`size`, whose method class 16 exposes as `getSize()`, and hides that signature itself. -/
theorem not_visible_of_hasAccessor :
    ¬∀ (env : Environment) (c : ClassId) (walk : List Key), env.types.Acyclic →
      Dequeues (Key.supertypes env.types) [Key.ofClass env.types c] walk →
      ∀ n b, (answer env [] (tableOf env .merged c)).HasAccessor n b →
        ∀ k ∈ walk, env.Exposes k.cls b.executable →
          ∃ o, (answer env [] (tableOf env .merged c)).overload?
              (env.methodName k.cls b.executable) b.signature = some o ∧ o.hidden = false := by
  intro h
  have hvisible := h veiledEnvironment 17 _ acyclic_veiled dequeues_veiled "size"
    (veiledEnvironment.bindMethod 16 (sizeMethod 16 false))
  rw [answer_veiled] at hvisible
  obtain ⟨o, ho, hhidden⟩ := hvisible hasAccessor_veiled (.general 16) (by decide)
    ⟨rfl, List.mem_singleton_self _⟩
  obtain rfl := Option.some.inj ho
  cases hhidden

end Session

end ScriptSurface
