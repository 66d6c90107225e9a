import ScriptSurface.Proofs.Member.Properties
import ScriptSurface.Proofs.Session.Invariants

/-!
# The tables of any session

Whatever a host reports, be it a hierarchy with cycles, each table that a session answers is made up
of own members.  `Session.Drawn` says so of the tables it keeps: a table of own members is the one
discovered, and a table of inherited members is the merge of the own members of some types.  Which
types these are is not said; in an acyclic hierarchy they are those on the walk of the class, and
that is part of `Session.Sound`.

Only two computations put tables down, and what they put down is of that kind
(`Session.keepsDrawn_ownMembers`, `Session.keepsDrawn_members`).  So what holds of own members and
goes from tables to their merge holds of every table that a session ever answers
(`Session.answer_tableOf_cases`).
-/

namespace ScriptSurface

open Descriptor (Key)

namespace Session

/-- The tables of a session are own members and merges of own members. -/
structure Drawn (env : Environment) (s : Session) : Prop where
  /-- Own members are those discovered. -/
  ownTables : s.ownTables.Keeps fun key => env.ownMembers key.cls
  /-- Inherited members are those of some types. -/
  mergedTables : ∀ key t, s.mergedTables.find? key = some t →
    ∃ types : List Key, t = .merge (types.map fun k => env.ownMembers k.cls)

/-- The computation keeps the tables of a session such. -/
def KeepsDrawn {α : Type} (env : Environment) (m : SessionM α) : Prop :=
  Ensures (Drawn env) m fun _ s => s.Drawn env

variable {env : Environment}

theorem drawn_start (env : Environment) : (start env.types).Drawn env where
  ownTables := Assoc.keeps_empty _
  mergedTables key t h := by cases h

theorem onlyOfTables_drawn (env : Environment) : OnlyOfTables (Drawn env) := by
  intro s s' h hs
  exact ⟨h.ownTables ▸ hs.ownTables, h.mergedTables ▸ hs.mergedTables⟩

theorem ignoresNotes_drawn (env : Environment) : IgnoresNotes (Drawn env) :=
  (onlyOfTables_drawn env).ignoresNotes

/-! ### Computations that put down no table -/

theorem keepsDrawn_describe (c : ClassId) : KeepsDrawn env (describe env.types c) :=
  (ignoresNotes_drawn env).keeps_describeWithin
    (fun _ _ _ hs => ⟨hs.ownTables, hs.mergedTables⟩) _ c

theorem keepsDrawn_constructors (key : Key) : KeepsDrawn env (constructors env key) :=
  (ignoresNotes_drawn env).keeps_constructors (fun _ _ hs => ⟨hs.ownTables, hs.mergedTables⟩) key

/-! ### Tables -/

/-- The own members a session answers are those discovered. -/
theorem ensures_ownMembers_of_drawn (env : Environment) (key : Key) :
    Ensures (Drawn env) (ownMembers env key) fun t s =>
      t = env.ownMembers key.cls ∧ s.Drawn env := by
  unfold ownMembers
  refine .bind_get fun s hs => ?_
  split
  · next t ht => exact .pure fun s' heq => heq ▸ ⟨hs.ownTables key t ht, hs⟩
  · refine .of_state ?_ hs
    have hput : Ensures (Drawn env) (do
        modify fun s => { s with ownTables := s.ownTables.put key (env.ownMembers key.cls) }
        return env.ownMembers key.cls) fun t s => t = env.ownMembers key.cls ∧ s.Drawn env :=
      fun s hs => ⟨rfl, hs.ownTables.put rfl, hs.mergedTables⟩
    dsimp only
    split_ifs
    · exact hput
    · refine .bind ((ignoresNotes_drawn env).keeps_forM_intern _) fun _ => .bind_get fun s hs => ?_
      exact .of_state (.bind ((ignoresNotes_drawn env).keeps_note _) fun _ => hput) hs

/-- The inherited members a session answers are a merge of own members. -/
theorem ensures_members_of_drawn (env : Environment) (key : Key) :
    Ensures (Drawn env) (members env key) fun t s =>
      (∃ types : List Key, t = .merge (types.map fun k => env.ownMembers k.cls)) ∧ s.Drawn env := by
  unfold members
  refine .bind_get fun s hs => ?_
  split
  · next t ht => exact .pure fun s' heq => heq ▸ ⟨hs.mergedTables key t ht, hs⟩
  · refine .of_state (.bind_get fun s hs => .of_state ?_ hs) hs
    refine .bind (.mapM_eq fun k _ => ensures_ownMembers_of_drawn env k) fun own => ?_
    refine .of_and fun hown => .bind_get fun s hs => .of_state ?_ hs
    refine .bind ((ignoresNotes_drawn env).keeps_note _) fun _ s hs =>
      ⟨⟨_, congrArg _ hown⟩, hs.ownTables, ?_⟩
    intro k t ht
    -- the table is either the one put down now or was there before
    change (s.mergedTables.put key _).find? k = some t at ht
    rw [Assoc.find?_put] at ht
    split_ifs at ht
    · exact ⟨_, (Option.some.inj ht).symm.trans (congrArg _ hown)⟩
    · exact hs.mergedTables k t ht

theorem keepsDrawn_ownMembers (key : Key) : KeepsDrawn env (ownMembers env key) :=
  (ensures_ownMembers_of_drawn env key).mono (fun _ hs => hs) fun _ _ hs => hs.2

theorem keepsDrawn_members (key : Key) : KeepsDrawn env (members env key) :=
  (ensures_members_of_drawn env key).mono (fun _ hs => hs) fun _ _ hs => hs.2

theorem isInvariant_drawn (env : Environment) : IsInvariant env (Drawn env) where
  ignoresNotes := ignoresNotes_drawn env
  describe := keepsDrawn_describe
  ownMembers := keepsDrawn_ownMembers
  members := keepsDrawn_members
  constructors := keepsDrawn_constructors
  mapping := (onlyOfTables_drawn env).keeps_mappingWithin _ _ _

/-! ### Requests -/

theorem drawn_after (env : Environment) (requests : List Request) :
    (after env requests).Drawn env :=
  (isInvariant_drawn env).after (drawn_start env) requests

/-- A table that a session answers is made up of own members. -/
theorem answer_tableOf_cases (env : Environment) (requests : List Request) (scope : Scope)
    (c : ClassId) :
    (∃ key : Key, answer env requests (tableOf env scope c) = env.ownMembers key.cls) ∨
      ∃ types : List Key, answer env requests (tableOf env scope c)
        = .merge (types.map fun k => env.ownMembers k.cls) := by
  have hs := keepsDrawn_describe c _ (drawn_after env requests)
  cases scope with
  | own => exact .inl ⟨_, (ensures_ownMembers_of_drawn env _ _ hs).1⟩
  | merged => exact .inr (ensures_members_of_drawn env _ _ hs).1

/-! ### Properties -/

/-- **Properties are in order in every table.**  Whatever was asked before, the own and the merged
members of a class have the accessors that its overloads call for, and all accessors are such. -/
theorem tableOf_hasProperties (env : Environment) (requests : List Request) (scope : Scope)
    (c : ClassId) : (answer env requests (tableOf env scope c)).HasProperties := by
  rcases answer_tableOf_cases env requests scope c with ⟨key, heq⟩ | ⟨types, heq⟩
  · rw [heq]
    exact env.hasProperties_ownMembers key.cls
  · have hmerge := MemberTable.isMerge_merge (types.map fun k => env.ownMembers k.cls)
    rw [heq]
    exact hmerge.hasProperties (fun k => env.wellKeyed_ownMembers k.cls)
      fun k _ => env.hasProperties_ownMembers k.cls

end Session

end ScriptSurface
