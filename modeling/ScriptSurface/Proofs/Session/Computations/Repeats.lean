import ScriptSurface.Proofs.Session.Computations.Requests
import ScriptSurface.Proofs.Session.MappingCache

/-!
# Asking a session again

A session that keeps all that a request needs answers out of what it keeps.  It stays as it is, but
for the warnings that each request for a type in the terms of a class gives of the parts that are
too deep to substitute in (`Session.perform_of_needs`).
-/

namespace ScriptSurface

open Descriptor (Key)

theorem Assoc.put_of_find? {κ ν : Type} [DecidableEq κ] {t : Assoc κ ν} {k : κ} {v : ν}
    (h : t.find? k = some v) : t.put k v = t := by
  refine ext_find? ?_ fun j => ?_
  · rw [keys_put, if_pos (mem_keys_of_find? h)]
  · rw [find?_put]
    split_ifs with hj
    · rw [← hj, h]
    · rfl

namespace Session

variable {env : Environment} {key : Key} {s : Session}

/-! ### What is kept -/

theorem describe_of_has {c : ClassId} (h : s.Has (.descriptor (Key.ofClass env.types c))) :
    describe env.types c s = (Key.ofClass env.types c, s) := by
  have hthere := (Assoc.contains_iff _ _).2 h
  obtain ⟨n, hn⟩ : ∃ n, ClassId.count = n + 1 := ⟨_, rfl⟩
  rw [describe, hn, describeWithin, bind_state, get_state, if_pos hthere]
  rfl

theorem table_of_has {scope : Scope} (h : s.Has (.table key scope)) :
    (table env key scope s).2 = s := by
  cases scope with
  | own => exact ownMembers_of_has h
  | merged => exact members_of_has h

theorem mapping_of_needs {c : ClassId} (h : ∀ k ∈ mappingNeeds env.types c, s.Has k) :
    (mapping env.types env.limit c s).2 = s := by
  rw [mappingNeeds] at h
  split_ifs at h with htrivial
  · rw [mapping_of_isTrivial htrivial]
  · obtain ⟨m, hm⟩ := Assoc.exists_find?_of_mem_keys (h _ (List.mem_singleton_self _))
    rw [mapping_of_find? (by simpa using htrivial) hm]

theorem opened_of_has {path : MemberPath} (h : s.Has (.memo path)) : s.opened path = s := by
  obtain ⟨m, hm⟩ := Assoc.exists_find?_of_mem_keys h
  have hmemo : s.memo path = m := by
    rw [memo, hm]
    rfl
  rw [opened, hmemo, Assoc.put_of_find? hm]

/-! ### Warnings -/

/-- The session after some more events. -/
def noting (s : Session) (events : List Event) : Session :=
  { s with events := s.events ++ events }

theorem noting_nil (s : Session) : s.noting [] = s := by
  unfold noting
  rw [List.append_nil]

theorem noteTooDeep_eq (limit : ℕ) (parts : List TypeExpr) (s : Session) :
    (noteTooDeep limit parts s).2 = s.noting (parts.map fun t => .tooDeep t limit) := by
  induction parts generalizing s with
  | nil => exact s.noting_nil.symm
  | cons t parts ih =>
    refine (ih (note (.tooDeep t limit) s).2).trans ?_
    have hevents : (s.events ++ [.tooDeep t limit]) ++ parts.map (fun t => .tooDeep t limit)
        = s.events ++ (t :: parts).map fun t => .tooDeep t limit := by simp
    unfold noting
    rw [← hevents]
    rfl

/-- The warnings that a request gives whatever is kept. -/
def Request.warnings (env : Environment) : Request → List Event
  | inTermsOf _ t => (t.beyond env.limit 0).map fun u => .tooDeep u env.limit
  | allInTermsOf _ ts => (TypeExpr.beyondAll env.limit 0 ts).map fun u => .tooDeep u env.limit
  | _ => []

/-! ### Requests -/

theorem tableOf_of_needs (hac : env.types.Acyclic) {scope : Scope} {c : ClassId}
    (hs : s.Knows env []) (h : ∀ k ∈ tableNeeds env.types scope c, s.Has k) :
    (tableOf env scope c s).2 = s := by
  rw [tableOf_eq hac scope c hs, describe_of_has (h _ (by simp [tableNeeds]))]
  exact table_of_has (h _ (by simp [tableNeeds]))

/-- A dispatch for which a session has all that is needed leaves it as it is. -/
theorem resolve_of_needs {path : MemberPath} {m : Member} {signature : Signature}
    (hm : env.member? path = some m)
    (h : ∀ k ∈ callNeeds env path signature fun _ => true, s.Has k) :
    (resolve env path m signature s).2 = s := by
  rw [callNeeds, hm] at h
  rw [resolve_of_known ?_, opened_of_has (h _ List.mem_cons_self)]
  cases hexact : m.slot.hasExact signature with
  | true => exact .inl rfl
  | false => exact .inr (h _ (by simp [hexact]))

theorem choose_of_needs {path : MemberPath} {m : Member} {signature : Signature}
    (hm : env.member? path = some m)
    (h : ∀ k ∈ callNeeds env path signature fun m => m.slot.hasVisible, s.Has k) :
    (choose env path m signature s).2 = s := by
  cases hvisible : m.slot.hasVisible with
  | true =>
    rw [choose_of_hasVisible hvisible]
    refine resolve_of_needs hm ?_
    simpa [callNeeds, hm, hvisible] using h
  | false =>
    rw [callNeeds, hm] at h
    rw [choose_of_not_hasVisible hvisible, opened_of_has (h _ List.mem_cons_self)]

theorem call_of_needs (hac : env.types.Acyclic) {scope : Scope} {c : ClassId} (name : String)
    (hs : s.Knows env []) {α : Type} (dispatch : MemberPath → Member → SessionM α)
    {needs : List Computation}
    (h : ∀ k ∈ tableNeeds env.types scope c ++ needs, s.Has k)
    (hdispatch : ∀ m, env.member? ⟨Key.ofClass env.types c, scope, name⟩ = some m →
      (∀ k ∈ needs, s.Has k) → (dispatch ⟨Key.ofClass env.types c, scope, name⟩ m s).2 = s) :
    (((memberOf? env scope c name) >>= fun found => found.forM fun (path, m) => do
      let _ ← dispatch path m) s).2 = s := by
  have htable := tableOf_of_needs hac hs fun k hk => h k (List.mem_append_left _ hk)
  rw [memberOf?_bind_forM hac scope c name hs, htable]
  cases hm : env.member? ⟨Key.ofClass env.types c, scope, name⟩ with
  | none => rfl
  | some m => exact hdispatch m hm fun k hk => h k (List.mem_append_right _ hk)

/-- A session that keeps all that a request needs stays as it is, but for warnings. -/
theorem perform_of_needs (hac : env.types.Acyclic) {r : Request} (hr : r.isQuery = true)
    (hs : s.Knows env []) (h : ∀ k ∈ r.needs env, s.Has k) :
    (r.perform env s).2 = s.noting (r.warnings env) := by
  cases r with
  | describe value =>
    refine Eq.trans ?_ s.noting_nil.symm
    cases value with
    | none => rfl
    | some c => exact congrArg Prod.snd (describe_of_has (h _ (List.mem_singleton_self _)))
  | table scope c =>
    refine Eq.trans ?_ s.noting_nil.symm
    exact tableOf_of_needs hac hs h
  | member scope c name =>
    refine Eq.trans ?_ s.noting_nil.symm
    exact (congrArg Prod.snd (memberOf?_eq hac scope c name hs)).trans (tableOf_of_needs hac hs h)
  | constructors c =>
    refine Eq.trans ?_ s.noting_nil.symm
    have hrun : ((Request.constructors c).perform env s).2
        = (constructors env (describe env.types c s).1 (describe env.types c s).2).2 := rfl
    rw [hrun, describe_of_has (h _ (by simp [Request.needs]))]
    exact constructors_of_has (h _ (by simp [Request.needs]))
  | resolve scope c name signature =>
    refine Eq.trans ?_ s.noting_nil.symm
    exact call_of_needs hac name hs (fun path m => Session.resolve env path m signature) h
      fun m => resolve_of_needs
  | choose scope c name signature =>
    refine Eq.trans ?_ s.noting_nil.symm
    exact call_of_needs hac name hs (fun path m => Session.choose env path m signature) h
      fun m => choose_of_needs
  | mapping c =>
    refine Eq.trans ?_ s.noting_nil.symm
    exact mapping_of_needs h
  | inTermsOf c t =>
    have hrun : ((Request.inTermsOf c t).perform env s).2 = (noteTooDeep env.limit
        (t.beyond env.limit 0) (mapping env.types env.limit c s).2).2 := rfl
    rw [hrun, mapping_of_needs h, noteTooDeep_eq]
    rfl
  | allInTermsOf c ts =>
    have hrun : ((Request.allInTermsOf c ts).perform env s).2 = (noteTooDeep env.limit
        (TypeExpr.beyondAll env.limit 0 ts) (mapping env.types env.limit c s).2).2 := rfl
    rw [hrun, mapping_of_needs h, noteTooDeep_eq]
    rfl
  | takeEvents => cases hr

end Session

end ScriptSurface
