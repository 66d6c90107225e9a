import ScriptSurface.Proofs.Member.Inheritance
import ScriptSurface.Proofs.Session.Computations.Requests
import ScriptSurface.Proofs.Session.OwnMembers

/-!
# What a class inherits

The walk from a class follows each path of links to supertypes once, shorter paths first, and the
session reports how many there are.  So the fields and accessors among the members of a class are
those of the nearest types that have any (`Session.membersOf_follows`).

The members of a class are inherited from its own members and the members of its direct supertypes:
no name and no signature of these is lost, a field or an accessor only gives way to another one, and
nothing is there that none of them has (`Session.membersOf_inherits`).
-/

namespace ScriptSurface

open Descriptor (Key)

/-! ### Nearest types -/

namespace Slot

variable {κ : Type}

/-- The field and the accessors of a slot are those of the nearest slots that have any. -/
structure NearestOf (next : κ → List κ) (start : κ) (own : κ → Slot) (s : Slot) : Prop where
  /-- The field is the nearest. -/
  field : IsNearest next start (fun k => (own k).field) s.field
  /-- The getter is the nearest. -/
  getter : IsNearest next start (fun k => (own k).getter) s.getter
  /-- The setter is the nearest. -/
  setter : IsNearest next start (fun k => (own k).setter) s.setter

/-- A slot has the field and the accessors that another slot has. -/
structure Retains (mine s : Slot) : Prop where
  /-- The field stays. -/
  field : ∀ f, mine.field = some f → s.field = some f
  /-- The getter stays. -/
  getter : ∀ b, mine.getter = some b → s.getter = some b
  /-- The setter stays. -/
  setter : ∀ b, mine.setter = some b → s.setter = some b

variable {next : κ → List κ} {start : κ} {own : κ → Slot} {s : Slot}

theorem IsMerge.nearestOf {paths : List (List ℕ)} {walk : List κ}
    (h : s.IsMerge (walk.map own)) (hwalk : Follows next start paths walk) :
    s.NearestOf next start own where
  field := by
    rw [h.field, List.findSome?_map]
    exact hwalk.isNearest _
  getter := by
    rw [h.getter, List.findSome?_map]
    exact hwalk.isNearest _
  setter := by
    rw [h.setter, List.findSome?_map]
    exact hwalk.isNearest _

theorem NearestOf.retains (h : s.NearestOf next start own) : (own start).Retains s :=
  ⟨fun _ => h.field.of_start, fun _ => h.getter.of_start, fun _ => h.setter.of_start⟩

end Slot

/-- The members of a type are the merge along its walk. -/
theorem Environment.isMerge_members (env : Environment) (key : Key) :
    (env.members key).IsMerge ((Key.walk env.types key).map fun k => env.ownMembers k.cls) :=
  MemberTable.isMerge_merge _

namespace Session

/-! ### Reports of merges -/

/-- How many types were come by for the members of which class, as an event reports it. -/
def visit? : Event → Option (ClassId × ℕ)
  | .mergedMembers c _ visited _ => some (c, visited)
  | _ => none

/-- The merges that were reported. -/
def visits (s : Session) : List (ClassId × ℕ) := s.events.filterMap visit?

variable {env : Environment} {s s' : Session} {key : Key}

/-- What a computation reports of a merge. -/
theorem bind_visit?_report? (c : Computation) :
    (c.report? env).bind visit? = match c with
      | .members key => some (key.cls, (Key.walk env.types key).length)
      | _ => none := by
  cases c with
  | ownMembers k =>
    rw [Computation.report?]
    split_ifs <;> rfl
  | search path signature =>
    rw [Computation.report?]
    cases env.member? path <;> rfl
  | _ => rfl

/-- Where the members of one type only are merged, that is what is reported. -/
theorem ComputesOnly.visits_eq {A : Set Computation} (h : s.ComputesOnly env A s')
    (hA : ∀ k, Computation.members k ∈ A → k = key) (hnew : ¬s.Has (.members key))
    (hhas : s'.Has (.members key)) :
    s'.visits = s.visits ++ [(key.cls, (Key.walk env.types key).length)] := by
  obtain ⟨cs, h, hcs⟩ := h
  have hvisit : ∀ e : Event, e.isReport = false → visit? e = none := by
    intro e he
    cases e <;> first | rfl | cases he
  have hmembers : ∀ c ∈ cs, (c.report? env).bind visit?
      = if (c == .members key) = true then some (key.cls, (Key.walk env.types key).length)
        else none := by
    intro c hc
    rw [bind_visit?_report?]
    cases c with
    | members k => rw [hA k (hcs _ hc), if_pos (beq_self_eq_true _)]
    | _ => rfl
  have hone : cs.filter (· == .members key) = [.members key] := by
    rw [List.filter_beq, List.count_eq_one_of_mem h.nodup (((h.has _).1 hhas).resolve_left hnew)]
    rfl
  have hreport : cs.filterMap (fun c => (c.report? env).bind visit?)
      = [(key.cls, (Key.walk env.types key).length)] := by
    rw [List.filterMap_congr hmembers, ← List.filterMap_filter, hone]
    rfl
  rw [visits, visits, filterMap_events hvisit, filterMap_events hvisit, h.reports,
    List.filterMap_append, List.filterMap_filterMap, hreport]

/-- To merge the members of a class is reported with the length of the walk. -/
theorem visits_after_table (hac : env.types.Acyclic) (requests : List Request) (c : ClassId)
    (hnew : ¬(after env requests).Has (.members (Key.ofClass env.types c))) :
    (after env (requests ++ [.table .merged c])).visits
      = (after env requests).visits ++ [((Key.ofClass env.types c).cls,
          (Key.walk env.types (Key.ofClass env.types c)).length)] := by
  have hs := knows_after hac requests
  have hrun : after env (requests ++ [.table .merged c])
      = (tableOf env .merged c (after env requests)).2 := by
    rw [after, List.foldl_append]
    rfl
  obtain ⟨hmembers, hhas⟩ :=
    computesOnly_members (ensures_describe hac c _ hs).2 List.mem_cons_self
  rw [hrun, tableOf_eq hac .merged c hs]
  refine ComputesOnly.visits_eq
    (((computesOnly_describe hac c hs).mono Set.subset_union_left).trans
      (hmembers.mono Set.subset_union_right)) ?_ hnew hhas
  -- of all that is worked out, only the members of the class itself are merged
  rintro k (⟨_, -, heq⟩ | heq | ⟨_, -, heq⟩)
  · cases heq
  · exact Computation.members.inj heq
  · cases heq

/-! ### Nearest wins -/

/-- **The walk ends, follows each path once, and nearest wins.**  In an acyclic hierarchy, the queue
of types whose own members go into the members of a class runs empty.  What is taken from it follows
the paths of links to supertypes, each of them once and shorter ones first, so a type is taken as
often as there are paths to it, and the merge is reported with the number of all paths.  A field or
an accessor among the members comes from a nearest type that has one of its own, so what the class
has itself stays. -/
theorem membersOf_follows (env : Environment) (hac : env.types.Acyclic) (requests : List Request)
    (c : ClassId) :
    ∃ walk paths,
      Dequeues (Key.supertypes env.types) [Key.ofClass env.types c] walk ∧
      Follows (Key.supertypes env.types) (Key.ofClass env.types c) paths walk ∧
      (∀ k, walk.count k
        = {path | endOf? (Key.supertypes env.types) path (Key.ofClass env.types c) = some k}.ncard) ∧
      (¬(after env requests).Has (.members (Key.ofClass env.types c)) →
        (after env (requests ++ [.table .merged c])).visits
          = (after env requests).visits ++ [((Key.ofClass env.types c).cls,
              {path | (endOf? (Key.supertypes env.types) path
                (Key.ofClass env.types c)).isSome = true}.ncard)]) ∧
      ∀ n,
        ((answer env requests (tableOf env .merged c)).slotAt n).NearestOf
          (Key.supertypes env.types) (Key.ofClass env.types c)
          (fun k => (env.ownMembers k.cls).slotAt n) ∧
        ((answer env requests (tableOf env .own c)).slotAt n).Retains
          ((answer env requests (tableOf env .merged c)).slotAt n) := by
  obtain ⟨paths, hfollows⟩ := Key.exists_follows_walk hac c
  refine ⟨_, paths, Key.dequeues_walk hac c, hfollows, hfollows.count_eq, ?_, fun n => ?_⟩
  · rw [← hfollows.length_eq]
    exact visits_after_table hac requests c
  · have hmerge := env.isMerge_members (Key.ofClass env.types c)
    have hnearest := (hmerge.slotAt n).nearestOf hfollows
    rw [answer_tableOf_merged hac, answer_tableOf_own]
    exact ⟨hnearest, hnearest.retains⟩

/-- In `diamond`, two paths lead from class 18 to interface 16, and five paths lead anywhere. -/
theorem membersOf_follows_diamond :
    diamondEnvironment.types.Acyclic ∧
      {path | endOf? (Key.supertypes diamondEnvironment.types) path
        (Key.ofClass diamondEnvironment.types 18) = some (.general 16)}.ncard = 2 ∧
      (after diamondEnvironment [.table .merged 18]).visits = [(18, 5)] := by
  obtain ⟨walk, paths, hwalk, hfollows, hcount, hvisits, -⟩ :=
    membersOf_follows diamondEnvironment acyclic_diamond [] 18
  obtain rfl := dequeues_diamond.unique hwalk
  refine ⟨acyclic_diamond, (hcount _).symm, ?_⟩
  rw [← hfollows.length_eq] at hvisits
  exact hvisits List.not_mem_nil

/-! ### What supertypes have -/

/-- The members of the direct supertypes of a class. -/
def supertypeTables (env : Environment) (c : ClassId) : SessionM (List MemberTable) := do
  let key ← describe env.types c
  (Key.supertypes env.types key).mapM (members env)

theorem answer_supertypeTables (hac : env.types.Acyclic) (requests : List Request) (c : ClassId) :
    answer env requests (supertypeTables env c)
      = (Key.supertypes env.types (Key.ofClass env.types c)).map env.members := by
  have h : Ensures (Knows env []) (supertypeTables env c) fun tables _ =>
      tables = (Key.supertypes env.types (Key.ofClass env.types c)).map env.members := by
    refine .bind (ensures_describe hac c) fun key => .of_and fun hkey => ?_
    subst hkey
    have hmembers := Ensures.mapM_eq
      fun k (hk : k ∈ Key.supertypes env.types (Key.ofClass env.types c)) => ensures_members env hk
    -- whoever has the descriptor of the class has those of its supertypes
    refine hmembers.mono (fun s hs => ?_) fun _ _ hs => hs.1
    exact ⟨hs.1, hs.1.closed _ (hs.2 _ List.mem_cons_self)⟩
  exact h _ (knows_after hac requests)

/-- **Inheritance loses nothing and invents nothing.**  In an acyclic hierarchy, the members of a
class are inherited from its own members and the members of its direct supertypes, its interfaces
and its superclass, though no merge looks at these. -/
theorem membersOf_inherits (env : Environment) (hac : env.types.Acyclic) (requests : List Request)
    (c : ClassId) :
    (answer env requests (tableOf env .own c)).Inherits
      (answer env requests (supertypeTables env c))
      (answer env requests (tableOf env .merged c)) := by
  obtain ⟨n, hwalk, hsupers⟩ := Key.exists_walk_eq hac c
  have hstart := env.isMerge_members (Key.ofClass env.types c)
  rw [hwalk] at hstart
  rw [answer_tableOf_own, answer_supertypeTables hac, answer_tableOf_merged hac]
  refine hstart.inherits fun k hk => ?_
  rw [← hsupers k hk]
  exact env.isMerge_members k

theorem supertypeTables_diamond (requests : List Request) :
    answer diamondEnvironment requests (supertypeTables diamondEnvironment 18)
      = [.merge ([Key.general 16].map fun k => diamondEnvironment.ownMembers k.cls),
          .merge ([Key.general 17, .general 16, .object].map fun k =>
            diamondEnvironment.ownMembers k.cls)] := by
  have hinterface : [Key.general 16] = Key.walk diamondEnvironment.types (.general 16) :=
    Dequeues.unique (.take .done) (Key.dequeues_walk acyclic_diamond 16)
  have hsuperclass : [Key.general 17, .general 16, .object]
      = Key.walk diamondEnvironment.types (.general 17) :=
    Dequeues.unique (.take (.take (.take .done))) (Key.dequeues_walk acyclic_diamond 17)
  rw [answer_supertypeTables acyclic_diamond, hinterface, hsuperclass]
  rfl

/-- In `diamond`, class 18 declares no `label()`.  It has one, that of interface 16, and both of its
supertypes have that one. -/
theorem membersOf_inherits_diamond :
    diamondEnvironment.types.Acyclic ∧
      (answer diamondEnvironment [.table .merged 17] (supertypeTables diamondEnvironment 18)).map
          (fun t => ((t.slotAt "label").callable? ⟨[]⟩).map Executable.declaring)
        = [some 16, some 16] ∧
      ∃ e, ((answer diamondEnvironment [.table .merged 17]
          (tableOf diamondEnvironment .merged 18)).slotAt "label").callable? ⟨[]⟩ = some e ∧
        e.declaring = 16 ∧
        ∃ t ∈ answer diamondEnvironment [.table .merged 17] (supertypeTables diamondEnvironment 18),
          (t.slotAt "label").callable? ⟨[]⟩ = some e := by
  have hinherits := membersOf_inherits diamondEnvironment acyclic_diamond [.table .merged 17] 18
  have hnone : ((answer diamondEnvironment [.table .merged 17]
      (tableOf diamondEnvironment .own 18)).slotAt "label").callable? ⟨[]⟩ = none := by
    rw [answer_tableOf_own]
    decide +kernel
  have hlabel : (((answer diamondEnvironment [.table .merged 17]
      (tableOf diamondEnvironment .merged 18)).slotAt "label").callable? ⟨[]⟩).map
        Executable.declaring = some 16 := by
    rw [answer_diamond]
    decide +kernel
  obtain ⟨e, he, hdeclaring⟩ := Option.map_eq_some_iff.1 hlabel
  refine ⟨acyclic_diamond, ?_, e, he, hdeclaring, ?_⟩
  · rw [supertypeTables_diamond]
    decide +kernel
  · rcases (hinherits.slots "label").callable ⟨[]⟩ e he with ⟨s, hs, hcallable⟩ | ⟨-, hown⟩
    · obtain ⟨t, ht, rfl⟩ := List.mem_map.1 hs
      exact ⟨t, ht, hcallable⟩
    · rw [hnone] at hown
      cases hown

end Session

end ScriptSurface
