import ScriptSurface.Proofs.Session.Computations.Ancestors
import ScriptSurface.Proofs.Session.Computations.Dispatch

/-!
# What requests make a session work out

Once a session has done what a request asks, it keeps what came of certain computations
(`Session.Request.needs`), whichever of them it had to make (`Session.attains_perform`).  So a
session that has answered some requests comes of a new one by computations, none of them made twice,
and keeps what all these requests need (`Session.attains_append`).
-/

namespace ScriptSurface

open Descriptor (Key)

theorem Descriptor.Key.above_ofClass_subset (h : HostTypes) (c : ClassId) :
    above h (ofClass h c) ⊆ Set.range (ofClass h) := by
  intro key hkey
  cases hkey with
  | refl => exact ⟨c, rfl⟩
  | tail _ hstep => exact mem_range_of_mem_supertypes hstep

namespace Session

/-- Whether a descriptor that is worked out is that of a class. -/
def Computation.IsProper (h : HostTypes) : Computation → Prop
  | descriptor key => key ∈ Set.range (Key.ofClass h)
  | _ => True

/-! ### What is kept after a request -/

/-- Whether a request asks for something; taking the events does not. -/
def Request.isQuery : Request → Bool
  | takeEvents => false
  | _ => true

/-- What a session keeps once it has looked at the members of a class. -/
def tableNeeds (h : HostTypes) (scope : Scope) (c : ClassId) : List Computation :=
  [.descriptor (Key.ofClass h c), .table (Key.ofClass h c) scope]

/-- What a session keeps once a member was looked up to be called. -/
def callNeeds (env : Environment) (path : MemberPath) (signature : Signature)
    (isDispatched : Member → Bool) : List Computation :=
  match env.member? path with
  | none => []
  | some m =>
    .memo path ::
      if isDispatched m && !m.slot.hasExact signature then [.search path signature] else []

/-- What a session keeps of the mapping of a class. -/
def mappingNeeds (h : HostTypes) (c : ClassId) : List Computation :=
  if Mapping.isTrivial h c then [] else [.mapping c]

/-- What a session keeps once it has done what is asked. -/
def Request.needs (env : Environment) : Request → List Computation
  | describe none => []
  | describe (some c) => [.descriptor (Key.ofClass env.types c)]
  | table scope c => tableNeeds env.types scope c
  | member scope c _ => tableNeeds env.types scope c
  | constructors c =>
    [.descriptor (Key.ofClass env.types c), .constructors (Key.ofClass env.types c)]
  | resolve scope c name signature =>
    tableNeeds env.types scope c ++
      callNeeds env ⟨Key.ofClass env.types c, scope, name⟩ signature fun _ => true
  | choose scope c name signature =>
    tableNeeds env.types scope c ++
      callNeeds env ⟨Key.ofClass env.types c, scope, name⟩ signature fun m => m.slot.hasVisible
  | mapping c => mappingNeeds env.types c
  | inTermsOf c _ => mappingNeeds env.types c
  | allInTermsOf c _ => mappingNeeds env.types c
  | takeEvents => []

variable {env : Environment} {known : List Key} {key : Key} {s s' : Session}

/-- The session goes on to another by computations, after which it has what is needed. -/
def Attains (env : Environment) (s : Session) (needs : List Computation) (s' : Session) : Prop :=
  s.ComputesOnly env {c | c.IsProper env.types} s' ∧ ∀ c ∈ needs, s'.Has c

theorem Attains.trans {s'' : Session} {needs needs' : List Computation}
    (h : s.Attains env needs s') (h' : s'.Attains env needs' s'') :
    s.Attains env (needs ++ needs') s'' :=
  ⟨h.1.trans h'.1, fun c hc => (List.mem_append.1 hc).elim (fun hc => h'.1.has (h.2 c hc)) (h'.2 c)⟩

theorem attains_describe (hac : env.types.Acyclic) (c : ClassId) (hs : s.Knows env []) :
    s.Attains env [.descriptor (Key.ofClass env.types c)] (describe env.types c s).2 := by
  obtain ⟨-, hknows⟩ := ensures_describe hac c s hs
  refine ⟨(computesOnly_describe hac c hs).mono ?_, by simpa [Has] using hknows.2⟩
  rintro _ ⟨key, hkey, rfl⟩
  exact Key.above_ofClass_subset env.types c hkey

theorem attains_table (hs : s.Knows env known) (hkey : key ∈ known) (scope : Scope) :
    s.Attains env [.table key scope] (table env key scope s).2 := by
  obtain ⟨honly, hhas⟩ := computesOnly_table hs hkey scope
  refine ⟨honly.mono ?_, by simpa using hhas⟩
  rintro _ ((rfl | ⟨k, -, rfl⟩) | rfl) <;> trivial

theorem attains_constructors (hs : s.Knows env known) (hkey : key ∈ known) :
    s.Attains env [.constructors key] (constructors env key s).2 := by
  obtain ⟨honly, hhas⟩ := computesOnly_constructors hs hkey
  exact ⟨honly.mono (by rintro _ rfl; trivial), by simpa using hhas⟩

theorem tableOf_eq (hac : env.types.Acyclic) (scope : Scope) (c : ClassId)
    (hs : s.Knows env []) :
    tableOf env scope c s
      = table env (Key.ofClass env.types c) scope (describe env.types c s).2 := by
  rw [← (ensures_describe hac c s hs).1]
  rfl

theorem attains_tableOf (hac : env.types.Acyclic) (scope : Scope) (c : ClassId)
    (hs : s.Knows env []) :
    s.Attains env (tableNeeds env.types scope c) (tableOf env scope c s).2 := by
  have hknows := (ensures_describe hac c s hs).2
  rw [tableOf_eq hac scope c hs]
  exact (attains_describe hac c hs).trans (attains_table hknows List.mem_cons_self scope)

theorem table_eq (hs : s.Knows env known) (hkey : key ∈ known) (scope : Scope) :
    (table env key scope s).1 = env.table key scope := by
  cases scope with
  | own => exact (ensures_ownMembers env key s hs).1
  | merged => exact (ensures_members env hkey s hs).1

/-- Looking up a member of a class answers it, and does what looking at its members does. -/
theorem memberOf?_eq (hac : env.types.Acyclic) (scope : Scope) (c : ClassId) (name : String)
    (hs : s.Knows env []) :
    memberOf? env scope c name s
      = ((env.member? ⟨Key.ofClass env.types c, scope, name⟩).map fun m =>
          (⟨Key.ofClass env.types c, scope, name⟩, m), (tableOf env scope c s).2) := by
  obtain ⟨hkey, hknows⟩ := ensures_describe hac c s hs
  have htable := table_eq hknows List.mem_cons_self scope
  have hafter := ensures_table env List.mem_cons_self scope _ hknows
  have hname := hafter.descriptor_eq List.mem_cons_self
  have hrun : memberOf? env scope c name s
      = ((((table env (Key.ofClass env.types c) scope (describe env.types c s).2).1.find? name).map
          fun slot => ⟨name, (Key.ofClass env.types c).cls,
            ((table env (Key.ofClass env.types c) scope (describe env.types c s).2).2.descriptor
              (Key.ofClass env.types c)).name, slot⟩).map
          fun m => (⟨Key.ofClass env.types c, scope, name⟩, m),
        (table env (Key.ofClass env.types c) scope (describe env.types c s).2).2) := by
    rw [← hkey]
    rfl
  rw [hrun, hname, htable, tableOf_eq hac scope c hs]
  rfl

/-! ### Calls -/

theorem attains_resolve {path : MemberPath} {m : Member} (hm : env.member? path = some m)
    (signature : Signature) (s : Session) :
    s.Attains env (callNeeds env path signature fun _ => true)
      (resolve env path m signature s).2 := by
  obtain ⟨honly, hmemo, hsearch⟩ := computesOnly_resolve hm signature s
  refine ⟨honly.mono (by rintro _ (rfl | rfl) <;> trivial), fun c hc => ?_⟩
  rw [callNeeds, hm] at hc
  rcases List.mem_cons.1 hc with rfl | hc
  · exact hmemo
  · split_ifs at hc with hexact
    · rw [List.mem_singleton.1 hc]
      exact hsearch (by simpa using hexact)
    · cases hc

theorem attains_choose {path : MemberPath} {m : Member} (hm : env.member? path = some m)
    (signature : Signature) (s : Session) :
    s.Attains env (callNeeds env path signature fun m => m.slot.hasVisible)
      (choose env path m signature s).2 := by
  obtain ⟨honly, hmemo, hsearch⟩ := computesOnly_choose hm signature s
  refine ⟨honly.mono (by rintro _ (rfl | rfl) <;> trivial), fun c hc => ?_⟩
  rw [callNeeds, hm] at hc
  rcases List.mem_cons.1 hc with rfl | hc
  · exact hmemo
  · split_ifs at hc with hexact
    · rw [List.mem_singleton.1 hc]
      rw [Bool.and_eq_true, Bool.not_eq_true'] at hexact
      exact hsearch hexact.1 hexact.2
    · cases hc

/-- The state after a member was looked up and, if there is one, a call of it dispatched. -/
theorem memberOf?_bind_forM (hac : env.types.Acyclic) (scope : Scope) (c : ClassId) (name : String)
    (hs : s.Knows env []) {α : Type} (dispatch : MemberPath → Member → SessionM α) :
    (((memberOf? env scope c name) >>= fun found => found.forM fun (path, m) => do
        let _ ← dispatch path m) s).2
      = match env.member? ⟨Key.ofClass env.types c, scope, name⟩ with
        | none => (tableOf env scope c s).2
        | some m =>
          (dispatch ⟨Key.ofClass env.types c, scope, name⟩ m (tableOf env scope c s).2).2 := by
  rw [bind_state, memberOf?_eq hac scope c name hs]
  cases env.member? ⟨Key.ofClass env.types c, scope, name⟩ <;> rfl

theorem attains_call (hac : env.types.Acyclic) (scope : Scope) (c : ClassId) (name : String)
    (hs : s.Knows env []) {α : Type} (dispatch : MemberPath → Member → SessionM α)
    {signature : Signature} {isDispatched : Member → Bool}
    (hdispatch : ∀ m, env.member? ⟨Key.ofClass env.types c, scope, name⟩ = some m → ∀ s : Session,
      s.Attains env (callNeeds env ⟨Key.ofClass env.types c, scope, name⟩ signature isDispatched)
        (dispatch ⟨Key.ofClass env.types c, scope, name⟩ m s).2) :
    s.Attains env (tableNeeds env.types scope c ++
        callNeeds env ⟨Key.ofClass env.types c, scope, name⟩ signature isDispatched)
      (((memberOf? env scope c name) >>= fun found => found.forM fun (path, m) => do
        let _ ← dispatch path m) s).2 := by
  have htable := attains_tableOf hac scope c hs
  rw [memberOf?_bind_forM hac scope c name hs]
  cases hm : env.member? ⟨Key.ofClass env.types c, scope, name⟩ with
  | none =>
    rw [callNeeds, hm, List.append_nil]
    exact htable
  | some m => exact htable.trans (hdispatch m hm _)

/-! ### Mappings -/

theorem attains_mapping (hac : env.types.Acyclic) (c : ClassId) (hs : s.Knows env []) :
    s.Attains env (mappingNeeds env.types c) (mapping env.types env.limit c s).2 := by
  obtain ⟨honly, hhas⟩ := computesOnly_mapping hac c hs
  refine ⟨honly.mono (by rintro _ ⟨k, -, rfl⟩; trivial), fun k hk => ?_⟩
  rw [mappingNeeds] at hk
  split_ifs at hk with htrivial
  · cases hk
  · rw [List.mem_singleton.1 hk]
    exact hhas (by simpa using htrivial)

/-- Warnings of types too deep to substitute in make no difference. -/
theorem Attains.noteTooDeep {needs : List Computation} (h : s.Attains env needs s') (limit : ℕ)
    (parts : List TypeExpr) : s.Attains env needs (noteTooDeep limit parts s').2 := by
  have hwarn : s'.ComputesOnly env {c | c.IsProper env.types}
      (Session.noteTooDeep limit parts s').2 := computesOnly_noteTooDeep limit parts s'
  exact ⟨h.1.trans hwarn, fun c hc => hwarn.has (h.2 c hc)⟩

/-! ### Requests -/

/-- After a request, a session keeps what the request needs. -/
theorem attains_perform (hac : env.types.Acyclic) {r : Request} (hr : r.isQuery = true)
    (hs : s.Knows env []) : s.Attains env (r.needs env) (r.perform env s).2 := by
  cases r with
  | describe value =>
    cases value with
    | none => exact ⟨.refl s, by simp [Request.needs]⟩
    | some c => exact attains_describe hac c hs
  | table scope c => exact attains_tableOf hac scope c hs
  | member scope c name =>
    have hrun : ((Request.member scope c name).perform env s).2 = (tableOf env scope c s).2 :=
      congrArg Prod.snd (memberOf?_eq hac scope c name hs)
    rw [hrun]
    exact attains_tableOf hac scope c hs
  | constructors c =>
    have hrun : ((Request.constructors c).perform env s).2
        = (constructors env (Key.ofClass env.types c) (describe env.types c s).2).2 := by
      rw [← (ensures_describe hac c s hs).1]
      rfl
    rw [hrun]
    exact (attains_describe hac c hs).trans
      (attains_constructors (ensures_describe hac c s hs).2 List.mem_cons_self)
  | resolve scope c name signature =>
    exact attains_call hac scope c name hs (fun path m => Session.resolve env path m signature)
      fun m hm => attains_resolve hm signature
  | choose scope c name signature =>
    exact attains_call hac scope c name hs (fun path m => Session.choose env path m signature)
      fun m hm => attains_choose hm signature
  | mapping c => exact attains_mapping hac c hs
  | inTermsOf c t => exact (attains_mapping hac c hs).noteTooDeep env.limit _
  | allInTermsOf c ts => exact (attains_mapping hac c hs).noteTooDeep env.limit _
  | takeEvents => cases hr

/-! ### Runs -/

/-- A run of requests goes on by computations, after which the session keeps what the requests
need. -/
theorem attains_append (hac : env.types.Acyclic) (requests : List Request) {more : List Request}
    (hmore : ∀ r ∈ more, r.isQuery = true) :
    (after env requests).Attains env (more.flatMap (Request.needs env))
      (after env (requests ++ more)) := by
  induction more using List.reverseRecOn with
  | nil => exact ⟨by rw [List.append_nil]; exact .refl _, by simp⟩
  | append_singleton more r ih =>
    have hrest := ih fun r hr => hmore r (List.mem_append_left _ hr)
    have hlast := attains_perform hac (hmore r (by simp))
      (knows_after hac (requests ++ more))
    rw [← List.append_assoc, List.flatMap_append, List.flatMap_singleton]
    nth_rewrite 2 [after]
    rw [List.foldl_append]
    exact hrest.trans hlast

/-- What a session remembers of members is right, whatever it was asked. -/
theorem recalls_after (hac : env.types.Acyclic) (requests : List Request) :
    (after env requests).Recalls env := by
  induction requests using List.reverseRecOn with
  | nil => exact fun path m _ => ⟨[], .empty env.accepts m.slot⟩
  | append_singleton requests r ih =>
    rw [after, List.foldl_append]
    cases hr : r.isQuery with
    | true => exact (attains_perform hac hr (knows_after hac requests)).1.recalls ih
    | false =>
      cases r with
      | takeEvents => exact ih
      | _ => cases hr

end Session

end ScriptSurface
