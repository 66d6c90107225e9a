import Mathlib.Data.List.Induction
import ScriptSurface.Proofs.Session.Sound

/-!
# Requests to a session

A `Session.Request` is something an environment asks of its session.  Where it is about the members
of a class, it first has the descriptor of the class made if need be.

In an acyclic hierarchy each request keeps the session sound (`ensures_perform`), so a session that
has answered any requests is sound (`knows_after`).  What it answers next is then what the
environment calls for, whatever came before: `answer_tableOf_merged`, `answer_mapping` and their
like.
-/

namespace ScriptSurface

open Descriptor (Key)

namespace Session

variable {env : Environment} {known : List Key} {s : Session} {key : Key}

/-! ### Tables -/

theorem ensures_ownMembers (env : Environment) (key : Key) :
    Ensures (Knows env known) (ownMembers env key) fun t s =>
      t = env.ownMembers key.cls ∧ s.Knows env known := by
  have hput : Ensures (Knows env known) (do
      modify fun s => { s with ownTables := s.ownTables.put key (env.ownMembers key.cls) }
      return env.ownMembers key.cls) fun t s =>
        t = env.ownMembers key.cls ∧ s.Knows env known :=
    fun s hs => ⟨rfl, { hs.1 with ownTables := hs.1.ownTables.put rfl }, hs.2⟩
  unfold ownMembers
  refine .bind_get fun s hs => ?_
  split
  · next t ht => exact .pure fun s' heq => heq ▸ ⟨hs.1.ownTables key t ht, hs⟩
  · refine .of_state ?_ hs
    dsimp only
    -- a type whose members are withheld leaves no signatures behind
    split_ifs
    · exact hput
    · refine .bind (.forM (fun m => .bind (ensures_intern _) fun _ => .pure fun _ hs => hs) _)
        fun _ => .bind_get fun s hs => .of_state (.bind (ensures_note _) fun _ => hput) hs

theorem ensures_members (env : Environment) (hkey : key ∈ known) :
    Ensures (Knows env known) (members env key) fun t s =>
      t = env.members key ∧ s.Knows env known := by
  unfold members
  refine .bind_get fun s hs => ?_
  split
  · next t ht => exact .pure fun s' heq => heq ▸ ⟨hs.1.mergedTables key t ht, hs⟩
  · refine .of_state (.bind_get fun s hs => ?_) hs
    dsimp only
    rw [hs.1.walk_eq (hs.2 key hkey)]
    refine .of_state ?_ hs
    refine .bind (.mapM_eq fun k _ => ensures_ownMembers env k) fun own => .of_and fun hown => ?_
    have hmerge : MemberTable.merge own = env.members key := by
      rw [hown]
      rfl
    refine .bind_get fun s hs => .of_state (.bind (ensures_note _) fun _ => ?_) hs
    exact fun s hs => ⟨hmerge, { hs.1 with mergedTables := hs.1.mergedTables.put hmerge }, hs.2⟩

theorem ensures_table (env : Environment) (hkey : key ∈ known) (scope : Scope) :
    Ensures (Knows env known) (table env key scope) fun _ s => s.Knows env known := by
  cases scope with
  | own => exact (ensures_ownMembers env key).mono (fun _ hs => hs) fun _ _ hs => hs.2
  | merged => exact (ensures_members env hkey).mono (fun _ hs => hs) fun _ _ hs => hs.2

theorem ensures_constructors (env : Environment) (key : Key) :
    Ensures (Knows env known) (constructors env key) fun t s =>
      t = env.constructors key.cls ∧ s.Knows env known := by
  unfold constructors
  refine .bind_get fun s hs => ?_
  split
  · next t ht => exact .pure fun s' heq => heq ▸ ⟨hs.1.constructorTables key t ht, hs⟩
  · refine .of_state ?_ hs
    dsimp only
    refine .bind (.forM (fun m => .bind (ensures_intern _) fun _ => .pure fun _ hs => hs) _)
      fun _ => .bind_get fun s hs => .of_state (.bind (ensures_note _) fun _ => ?_) hs
    exact fun s hs =>
      ⟨rfl, { hs.1 with constructorTables := hs.1.constructorTables.put rfl }, hs.2⟩

/-! ### Dispatch -/

theorem ensures_member? (env : Environment) (path : MemberPath) (hkey : path.key ∈ known) :
    Ensures (Knows env known) (member? env path) fun _ s => s.Knows env known :=
  .bind (ensures_table env hkey path.scope) fun _ => .bind_get fun _ hs =>
    .of_state (.pure fun _ hs => hs) hs

theorem ensures_withMemo {α : Type} (path : MemberPath) (dispatch : StateM Memo α) :
    Ensures (Knows env known) (withMemo path dispatch) fun _ s => s.Knows env known :=
  fun s hs => ⟨hs.1.trace _ s.signatures s.events, hs.2⟩

theorem ensures_noteSearch (m : Member) (signature : Signature) (r : Resolution) :
    Ensures (Knows env known) (noteSearch m signature r) fun _ s => s.Knows env known := by
  unfold noteSearch
  split
  · exact ensures_note _
  · exact .pure fun _ hs => hs

theorem ensures_resolve (env : Environment) (path : MemberPath) (m : Member)
    (signature : Signature) :
    Ensures (Knows env known) (resolve env path m signature) fun _ s => s.Knows env known :=
  .bind (ensures_withMemo path _) fun r => .bind (ensures_noteSearch m signature r) fun _ =>
    .pure fun _ hs => hs

theorem ensures_choose (env : Environment) (path : MemberPath) (m : Member)
    (signature : Signature) :
    Ensures (Knows env known) (choose env path m signature) fun _ s => s.Knows env known := by
  refine .bind (ensures_withMemo path _) fun choice => ?_
  refine .bind (Q := fun _ s => s.Knows env known) ?_ fun _ => .pure fun _ hs => hs
  cases choice with
  | none => exact .pure fun _ hs => hs
  | some r => exact ensures_noteSearch m signature r

/-! ### Mappings -/

theorem ensures_noteTooDeep (limit : ℕ) (parts : List TypeExpr) :
    Ensures (Knows env known) (noteTooDeep limit parts) fun _ s => s.Knows env known :=
  .forM (fun _ => ensures_note _) parts

theorem ensures_mappingWithin (hac : env.types.Acyclic) {rank : ClassId → ℕ}
    (hrank : ∀ c, ∀ p ∈ env.types.supertypes c, rank p < rank c) {n : ℕ} {c : ClassId}
    (hn : rank c < n) :
    Ensures (Knows env known) (mappingWithin env.types env.limit n c) fun m s =>
      m = Mapping.of env.types env.limit c ∧ s.Knows env known := by
  induction n generalizing c with
  | zero => omega
  | succ n ih =>
    have hof := Mapping.of_eq hac env.limit c
    rw [mappingWithin]
    split_ifs at hof ⊢ with htrivial
    · exact .pure fun s hs => ⟨hof.symm, hs⟩
    · refine .bind_get fun s hs => ?_
      split
      · next m hm => exact .pure fun s' heq => heq ▸ ⟨hs.1.mappings c m hm, hs⟩
      · refine .of_state ?_ hs
        have hparent : ∀ p ∈ env.types.supertypes c, Ensures (Knows env known)
            (do
              let m ← mappingWithin env.types env.limit n p
              noteTooDeep env.limit (m.beyond env.limit)
              return m)
            fun m s => m = Mapping.of env.types env.limit p ∧ s.Knows env known := by
          intro p hp
          have hlt := hrank c p hp
          refine .bind (ih (by omega)) fun m => .of_and fun hm => ?_
          exact .bind (ensures_noteTooDeep env.limit _) fun _ => .pure fun s hs => ⟨hm, hs⟩
        refine .bind (.mapM_eq hparent) fun inherited => .of_and fun heq => ?_
        refine .bind (ensures_note _) fun _ s hs => ?_
        rw [← heq] at hof
        exact ⟨hof.symm, { hs.1 with mappings := hs.1.mappings.put hof.symm }, hs.2⟩

/-- A session answers the mapping of a class whatever it has kept. -/
theorem ensures_mapping (hac : env.types.Acyclic) (c : ClassId) :
    Ensures (Knows env known) (mapping env.types env.limit c) fun m s =>
      m = Mapping.of env.types env.limit c ∧ s.Knows env known := by
  obtain ⟨rank, hrank⟩ := hac.exists_rank
  exact ensures_mappingWithin hac (fun c => (hrank c).2) (hrank c).1

theorem ensures_inTermsOf? (hac : env.types.Acyclic) (c : ClassId) (t : TypeExpr) :
    Ensures (Knows env known) (inTermsOf? env c t) fun u s =>
      u = t.substitute? (Mapping.of env.types env.limit c).find? env.limit 0 ∧
        s.Knows env known := by
  refine .bind (ensures_mapping hac c) fun m => .of_and fun hm => ?_
  refine .bind (ensures_noteTooDeep env.limit _) fun _ => .pure fun s hs => ⟨?_, hs⟩
  rw [hm]

theorem ensures_allInTermsOf? (hac : env.types.Acyclic) (c : ClassId) (ts : List TypeExpr) :
    Ensures (Knows env known) (allInTermsOf? env c ts) fun us s =>
      us = TypeExpr.substituteAll? (Mapping.of env.types env.limit c).find? env.limit 0 ts ∧
        s.Knows env known := by
  refine .bind (ensures_mapping hac c) fun m => .of_and fun hm => ?_
  refine .bind (ensures_noteTooDeep env.limit _) fun _ => .pure fun s hs => ⟨?_, hs⟩
  rw [hm]

/-! ### Requests -/

/-- Something asked of a session. -/
inductive Request where
  /-- The descriptor for the class of a value, or for null. -/
  | describe (value : Option ClassId)
  /-- The members of a class. -/
  | table (scope : Scope) (c : ClassId)
  /-- A member of a class. -/
  | member (scope : Scope) (c : ClassId) (name : String)
  /-- The constructors of a class. -/
  | constructors (c : ClassId)
  /-- What a call of a member would be dispatched to. -/
  | resolve (scope : Scope) (c : ClassId) (name : String) (signature : Signature)
  /-- What a call of a member is dispatched to. -/
  | choose (scope : Scope) (c : ClassId) (name : String) (signature : Signature)
  /-- The mapping of a class. -/
  | mapping (c : ClassId)
  /-- A type in the terms of a class. -/
  | inTermsOf (c : ClassId) (t : TypeExpr)
  /-- Types in the terms of a class. -/
  | allInTermsOf (c : ClassId) (ts : List TypeExpr)
  /-- The events so far. -/
  | takeEvents

/-- The members of a class in one of its tables. -/
def tableOf (env : Environment) (scope : Scope) (c : ClassId) : SessionM MemberTable := do
  table env (← describe env.types c) scope

/-- A member of a class. -/
def memberOf? (env : Environment) (scope : Scope) (c : ClassId) (name : String) :
    SessionM (Option (MemberPath × Member)) := do
  let path : MemberPath := ⟨← describe env.types c, scope, name⟩
  return (← member? env path).map fun m => (path, m)

/-- Has a session do what is asked. -/
def Request.perform (env : Environment) : Request → SessionM Unit
  | describe value => do let _ ← describeValue env.types value
  | table scope c => do let _ ← tableOf env scope c
  | member scope c name => do let _ ← memberOf? env scope c name
  | constructors c => do let _ ← Session.constructors env (← Session.describe env.types c)
  | resolve scope c name signature => do
    (← memberOf? env scope c name).forM fun (path, m) => do
      let _ ← Session.resolve env path m signature
  | choose scope c name signature => do
    (← memberOf? env scope c name).forM fun (path, m) => do
      let _ ← Session.choose env path m signature
  | mapping c => do let _ ← Session.mapping env.types env.limit c
  | inTermsOf c t => do let _ ← inTermsOf? env c t
  | allInTermsOf c ts => do let _ ← allInTermsOf? env c ts
  | takeEvents => do let _ ← Session.takeEvents

/-- The session of an environment after some requests. -/
def after (env : Environment) (requests : List Request) : Session :=
  requests.foldl (fun s r => (r.perform env s).2) (start env.types)

theorem ensures_describe (hac : env.types.Acyclic) (c : ClassId) :
    Ensures (Knows env known) (describe env.types c) fun key s =>
      key = Key.ofClass env.types c ∧ s.Knows env (Key.ofClass env.types c :: known) := by
  obtain ⟨rank, hrank⟩ := hac.exists_rank
  refine (ensures_describeWithin (fun c => (hrank c).2) (hrank c).1 known).mono (fun _ hs => hs) ?_
  rintro key s ⟨rfl, hs⟩
  exact ⟨rfl, hs⟩

theorem ensures_describeValue (hac : env.types.Acyclic) (value : Option ClassId) :
    Ensures (Knows env []) (describeValue env.types value) fun _ s => s.Knows env [] := by
  cases value with
  | none => exact .pure fun _ hs => hs
  | some c =>
    exact (ensures_describe hac c).mono (fun _ hs => hs) fun _ _ hs =>
      hs.2.mono (List.nil_subset _)

theorem ensures_tableOf (hac : env.types.Acyclic) (scope : Scope) (c : ClassId) :
    Ensures (Knows env known) (tableOf env scope c) fun _ s => s.Knows env known := by
  refine .bind (ensures_describe hac c) fun key => .of_and fun hkey => ?_
  subst hkey
  exact (ensures_table env List.mem_cons_self scope).mono (fun _ hs => hs) fun _ _ hs =>
    hs.mono (List.subset_cons_self _ _)

theorem ensures_memberOf? (hac : env.types.Acyclic) (scope : Scope) (c : ClassId)
    (name : String) :
    Ensures (Knows env known) (memberOf? env scope c name) fun _ s => s.Knows env known := by
  refine .bind (ensures_describe hac c) fun key => .of_and fun hkey => ?_
  subst hkey
  refine .bind (ensures_member? env ⟨_, scope, name⟩ List.mem_cons_self) fun m => ?_
  exact .pure fun s hs => hs.mono (List.subset_cons_self _ _)

/-- Every request keeps a session sound. -/
theorem ensures_perform (hac : env.types.Acyclic) (r : Request) :
    Ensures (Knows env []) (r.perform env) fun _ s => s.Knows env [] := by
  cases r with
  | describe value =>
    exact .bind (ensures_describeValue hac value) fun _ => .pure fun _ hs => hs
  | table scope c => exact .bind (ensures_tableOf hac scope c) fun _ => .pure fun _ hs => hs
  | member scope c name =>
    exact .bind (ensures_memberOf? hac scope c name) fun _ => .pure fun _ hs => hs
  | constructors c =>
    exact .bind (ensures_describe hac c) fun key => .of_and fun _ =>
      .bind (ensures_constructors env key) fun _ => .pure fun _ hs =>
        hs.2.mono (List.nil_subset _)
  | resolve scope c name signature =>
    refine .bind (ensures_memberOf? hac scope c name) fun found => ?_
    cases found with
    | none => exact .pure fun _ hs => hs
    | some found =>
      exact .bind (ensures_resolve env found.1 found.2 signature) fun _ => .pure fun _ hs => hs
  | choose scope c name signature =>
    refine .bind (ensures_memberOf? hac scope c name) fun found => ?_
    cases found with
    | none => exact .pure fun _ hs => hs
    | some found =>
      exact .bind (ensures_choose env found.1 found.2 signature) fun _ => .pure fun _ hs => hs
  | mapping c => exact .bind (ensures_mapping hac c) fun _ => .pure fun _ hs => hs.2
  | inTermsOf c t => exact .bind (ensures_inTermsOf? hac c t) fun _ => .pure fun _ hs => hs.2
  | allInTermsOf c ts =>
    exact .bind (ensures_allInTermsOf? hac c ts) fun _ => .pure fun _ hs => hs.2
  | takeEvents => exact .bind ensures_takeEvents fun _ => .pure fun _ hs => hs

/-! ### Runs -/

/-- A session that has answered any requests is sound. -/
theorem knows_after (hac : env.types.Acyclic) (requests : List Request) :
    (after env requests).Knows env [] := by
  induction requests using List.reverseRecOn with
  | nil => exact ⟨sound_start env, by simp⟩
  | append_singleton requests r ih =>
    rw [after, List.foldl_append]
    exact ensures_perform hac r _ ih

/-- What a session answers after some requests. -/
def answer {α : Type} (env : Environment) (requests : List Request) (m : SessionM α) : α :=
  (m (after env requests)).1

theorem answer_tableOf_merged (hac : env.types.Acyclic) (requests : List Request) (c : ClassId) :
    answer env requests (tableOf env .merged c) = env.members (Key.ofClass env.types c) := by
  have h : Ensures (Knows env []) (tableOf env .merged c) fun t _ =>
      t = env.members (Key.ofClass env.types c) := by
    refine .bind (ensures_describe hac c) fun key => .of_and fun hkey => ?_
    subst hkey
    exact (ensures_members env List.mem_cons_self).mono (fun _ hs => hs) fun _ _ hs => hs.1
  exact h _ (knows_after hac requests)

theorem answer_mapping (hac : env.types.Acyclic) (requests : List Request) (c : ClassId) :
    answer env requests (mapping env.types env.limit c) = Mapping.of env.types env.limit c :=
  (ensures_mapping hac c _ (knows_after hac requests)).1

theorem answer_inTermsOf? (hac : env.types.Acyclic) (requests : List Request) (c : ClassId)
    (t : TypeExpr) :
    answer env requests (inTermsOf? env c t)
      = t.substitute? (Mapping.of env.types env.limit c).find? env.limit 0 :=
  (ensures_inTermsOf? hac c t _ (knows_after hac requests)).1

theorem answer_allInTermsOf? (hac : env.types.Acyclic) (requests : List Request) (c : ClassId)
    (ts : List TypeExpr) :
    answer env requests (allInTermsOf? env c ts)
      = TypeExpr.substituteAll? (Mapping.of env.types env.limit c).find? env.limit 0 ts :=
  (ensures_allInTermsOf? hac c ts _ (knows_after hac requests)).1

end Session

end ScriptSurface
