import ScriptSurface.Proofs.Session.Computations.Repeats
import ScriptSurface.Proofs.Session.Members

/-!
# Replies

A request has a `Session.Reply`: what the session answers to whoever asked.  In an acyclic hierarchy
it is what the environment calls for (`Session.Request.expected`), so it does not depend on what was
asked before: whatever a session keeps is right, and what it does not keep is worked out from
scratch (`Session.reply_eq`).

What a session works out is told by `Session.Account`: it makes no computation twice and reports
each once, and whoever repeats a request gets the reply without the session changing, but for
warnings.  `Session.reply_eq_and_exists_account` is about any runs of requests.
-/

namespace ScriptSurface

open Descriptor (Key)

namespace Session

/-! ### Replies -/

/-- What a session answers. -/
inductive Reply where
  /-- A type and its descriptor. -/
  | descriptor (key : Key) (d : Descriptor)
  /-- Members. -/
  | table (t : MemberTable)
  /-- A member, if there is one of the name. -/
  | member (m : Option Member)
  /-- Constructors. -/
  | constructors (t : Overloads)
  /-- The overload that a call goes to, or `none` if nothing is there to be called. -/
  | binding (found : Option (Option Binding))
  /-- A mapping. -/
  | mapping (m : Mapping)
  /-- A type, or `none` if it stays the instance it is. -/
  | type (t : Option TypeExpr)
  /-- Types, or `none` if they stay the list they are. -/
  | types (ts : Option (List TypeExpr))
  /-- The events are handed over. -/
  | events

/-- Has a session do what is asked and answer. -/
def Request.reply (env : Environment) : Request → SessionM Reply
  | describe value => do
    let key ← describeValue env.types value
    return .descriptor key ((← get).descriptor key)
  | table scope c => return .table (← tableOf env scope c)
  | member scope c name => return .member ((← memberOf? env scope c name).map Prod.snd)
  | constructors c =>
    return .constructors (← Session.constructors env (← Session.describe env.types c))
  | resolve scope c name signature => do
    match ← memberOf? env scope c name with
    | none => return .binding none
    | some (path, m) => return .binding (some (← Session.resolve env path m signature).binding)
  | choose scope c name signature => do
    match ← memberOf? env scope c name with
    | none => return .binding none
    | some (path, m) =>
      return .binding ((← Session.choose env path m signature).map Resolution.binding)
  | mapping c => return .mapping (← Session.mapping env.types env.limit c)
  | inTermsOf c t => return .type (← inTermsOf? env c t)
  | allInTermsOf c ts => return .types (← allInTermsOf? env c ts)
  | takeEvents => do
    let _ ← Session.takeEvents
    return .events

/-- What an environment calls for as the reply to a request. -/
def Request.expected (env : Environment) : Request → Reply
  | describe value =>
    let key := (value.map (Key.ofClass env.types)).getD .object
    .descriptor key (Descriptor.of env.types key)
  | table scope c => .table (env.table (Key.ofClass env.types c) scope)
  | member scope c name => .member (env.member? ⟨Key.ofClass env.types c, scope, name⟩)
  | constructors c => .constructors (env.constructors (Key.ofClass env.types c).cls)
  | resolve scope c name signature =>
    .binding ((env.member? ⟨Key.ofClass env.types c, scope, name⟩).map fun m =>
      m.slot.select env.accepts signature)
  | choose scope c name signature =>
    .binding ((env.member? ⟨Key.ofClass env.types c, scope, name⟩).bind fun m =>
      if m.slot.hasVisible then some (m.slot.select env.accepts signature) else none)
  | mapping c => .mapping (Mapping.of env.types env.limit c)
  | inTermsOf c t =>
    .type (t.substitute? (Mapping.of env.types env.limit c).find? env.limit 0)
  | allInTermsOf c ts =>
    .types (TypeExpr.substituteAll? (Mapping.of env.types env.limit c).find? env.limit 0 ts)
  | takeEvents => .events

variable {env : Environment} {s s' : Session}

/-- To answer a request is to do what is asked. -/
theorem reply_snd (r : Request) (s : Session) : (r.reply env s).2 = (r.perform env s).2 := by
  cases r with
  | resolve scope c name signature =>
    rw [Request.reply, Request.perform, bind_state, bind_state]
    cases (memberOf? env scope c name s).1 <;> rfl
  | choose scope c name signature =>
    rw [Request.reply, Request.perform, bind_state, bind_state]
    cases (memberOf? env scope c name s).1 <;> rfl
  | _ => rfl

theorem binding_resolve (hs : s.Recalls env) {path : MemberPath} {m : Member}
    (hm : env.member? path = some m) (signature : Signature) :
    (resolve env path m signature s).1.binding = m.slot.select env.accepts signature := by
  obtain ⟨requested, hrecords⟩ := hs path m hm
  exact hrecords.binding_resolve signature

theorem binding_choose (hs : s.Recalls env) {path : MemberPath} {m : Member}
    (hm : env.member? path = some m) (signature : Signature) :
    (choose env path m signature s).1.map Resolution.binding
      = if m.slot.hasVisible then some (m.slot.select env.accepts signature) else none := by
  have hchoose : (choose env path m signature s).1
      = (m.choose env.accepts signature (s.memo path)).1 := rfl
  rw [hchoose]
  cases hvisible : m.slot.hasVisible with
  | true =>
    obtain ⟨requested, hrecords⟩ := hs path m hm
    rw [m.choose_of_hasVisible hvisible, Option.map_some, hrecords.binding_resolve, if_pos rfl]
  | false =>
    rw [m.choose_of_not_hasVisible hvisible, if_neg Bool.false_ne_true]
    rfl

/-- A session answers what its environment calls for. -/
theorem reply_eq (hac : env.types.Acyclic) (hs : s.Knows env []) (hrecalls : s.Recalls env)
    (r : Request) : (r.reply env s).1 = r.expected env := by
  have hknows : ∀ c, _ := fun c => ensures_describe hac c s hs
  cases r with
  | describe value =>
    cases value with
    | none => exact congrArg (Reply.descriptor .object) (hs.1.descriptor_eq hs.1.object)
    | some c =>
      obtain ⟨hkey, hdescribed⟩ := hknows c
      have hd := hdescribed.descriptor_eq List.mem_cons_self
      show Reply.descriptor (describe env.types c s).1
        ((describe env.types c s).2.descriptor (describe env.types c s).1) = _
      rw [hkey, hd]
      rfl
  | table scope c =>
    show Reply.table (tableOf env scope c s).1 = _
    rw [tableOf_eq hac scope c hs, table_eq (hknows c).2 List.mem_cons_self]
    rfl
  | member scope c name =>
    show Reply.member ((memberOf? env scope c name s).1.map Prod.snd) = _
    rw [memberOf?_eq hac scope c name hs, Option.map_map]
    exact congrArg Reply.member (Option.map_id' ..)
  | constructors c =>
    obtain ⟨hkey, hdescribed⟩ := hknows c
    have hfound := (ensures_constructors env (describe env.types c s).1 _ hdescribed).1
    rw [Request.expected, ← hkey, ← hfound]
    rfl
  | resolve scope c name signature =>
    have htable := (attains_tableOf hac scope c hs).1.recalls hrecalls
    rw [Request.reply, bind_state, memberOf?_eq hac scope c name hs, Request.expected]
    cases hm : env.member? ⟨Key.ofClass env.types c, scope, name⟩ with
    | none => rfl
    | some m =>
      exact congrArg (fun b => Reply.binding (some b)) (binding_resolve htable hm signature)
  | choose scope c name signature =>
    have htable := (attains_tableOf hac scope c hs).1.recalls hrecalls
    rw [Request.reply, bind_state, memberOf?_eq hac scope c name hs, Request.expected]
    cases hm : env.member? ⟨Key.ofClass env.types c, scope, name⟩ with
    | none => rfl
    | some m => exact congrArg Reply.binding (binding_choose htable hm signature)
  | mapping c => exact congrArg Reply.mapping (ensures_mapping hac c s hs).1
  | inTermsOf c t => exact congrArg Reply.type (ensures_inTermsOf? hac c t s hs).1
  | allInTermsOf c ts => exact congrArg Reply.types (ensures_allInTermsOf? hac c ts s hs).1
  | takeEvents => rfl

/-- After any requests, a session answers what its environment calls for. -/
theorem answer_reply (hac : env.types.Acyclic) (requests : List Request) (r : Request) :
    answer env requests (r.reply env) = r.expected env :=
  reply_eq hac (knows_after hac requests) (recalls_after hac requests) r

/-! ### What is kept -/

/-- What a session keeps is kept by another. -/
structure Extends (s s' : Session) : Prop where
  /-- The descriptors are. -/
  descriptors : ∀ key d, s.descriptors.find? key = some d → s'.descriptors.find? key = some d
  /-- The own members are. -/
  ownTables : ∀ key t, s.ownTables.find? key = some t → s'.ownTables.find? key = some t
  /-- The own and inherited members are. -/
  mergedTables : ∀ key t, s.mergedTables.find? key = some t → s'.mergedTables.find? key = some t
  /-- The constructors are. -/
  constructorTables : ∀ key t,
    s.constructorTables.find? key = some t → s'.constructorTables.find? key = some t
  /-- The mappings are. -/
  mappings : ∀ c m, s.mappings.find? c = some m → s'.mappings.find? c = some m

/-- The classes whose descriptors were created, in order. -/
def creations (s : Session) : List ClassId :=
  s.events.filterMap fun
    | .createdDescriptor c _ _ => some c
    | _ => none

/-- What a session has worked out for some requests: the given computations. -/
structure Account (env : Environment) (requests : List Request) (cs : List Computation) :
    Prop where
  /-- No computation was made twice. -/
  nodup : cs.Nodup
  /-- What came of the computations is kept; two descriptors are there from the start. -/
  has : ∀ c, (after env requests).Has c ↔
    c ∈ cs ∨ c = .descriptor .object ∨ c = .descriptor .array
  /-- The events are the reports of the computations, in order. -/
  reports : (after env requests).reports = cs.filterMap (Computation.report? env)
  /-- The descriptor of a class was created once at most. -/
  creations : (after env requests).creations.Nodup
  /-- The mapping of a class was composed once at most. -/
  compositions : (after env requests).compositions.Nodup
  /-- A request that is repeated gets the reply, and no event but its warnings is noted. -/
  again : ∀ r ∈ requests, r.reply env (after env requests)
    = (r.expected env, (after env requests).noting (r.warnings env))
  /-- What is kept is kept for good. -/
  stays : ∀ more : List Request, (∀ r ∈ more, r.isQuery = true) →
    (after env requests).Extends (after env (requests ++ more))

theorem extends_of_has (hs : s.Knows env []) (hs' : s'.Knows env [])
    (hhas : ∀ c, s.Has c → s'.Has c) : s.Extends s' where
  descriptors key d hd := by
    rw [hs.1.descriptors key d hd]
    exact hs'.1.descriptors.find?_eq (hhas (.descriptor key) (Assoc.mem_keys_of_find? hd))
  ownTables key t ht := by
    rw [hs.1.ownTables key t ht]
    exact hs'.1.ownTables.find?_eq (hhas (.ownMembers key) (Assoc.mem_keys_of_find? ht))
  mergedTables key t ht := by
    rw [hs.1.mergedTables key t ht]
    exact hs'.1.mergedTables.find?_eq (hhas (.members key) (Assoc.mem_keys_of_find? ht))
  constructorTables key t ht := by
    rw [hs.1.constructorTables key t ht]
    exact hs'.1.constructorTables.find?_eq (hhas (.constructors key) (Assoc.mem_keys_of_find? ht))
  mappings c m hm := by
    rw [hs.1.mappings c m hm]
    exact hs'.1.mappings.find?_eq (hhas (.mapping c) (Assoc.mem_keys_of_find? hm))

/-! ### Events of one kind -/

variable {cs : List Computation}

/-- What is read off the reports of computations, where each computation gives something else, is
all different. -/
theorem Computes.nodup_filterMap {β : Type} {g : Event → Option β}
    (h : (start env.types).Computes env cs s) (hg : ∀ e, e.isReport = false → g e = none)
    (hinj : ∀ c ∈ cs, ∀ c' ∈ cs, ∀ e e' b, c.report? env = some e → c'.report? env = some e' →
      g e = some b → g e' = some b → c = c') :
    (s.events.filterMap g).Nodup := by
  have hreports : s.reports = cs.filterMap (Computation.report? env) := h.reports
  rw [filterMap_events hg, hreports, List.filterMap_filterMap, List.nodup_iff_pairwise_ne,
    List.pairwise_filterMap]
  refine List.Pairwise.imp_of_mem (fun {c c'} hc hc' hne b hb b' hb' heq => hne ?_) h.nodup
  obtain ⟨e, he, hb⟩ := Option.bind_eq_some_iff.1 hb
  obtain ⟨e', he', hb'⟩ := Option.bind_eq_some_iff.1 hb'
  exact hinj c hc c' hc' e e' b he he' hb (heq ▸ hb')

theorem Computation.exists_of_report?_createdDescriptor {c : Computation} {k : ClassId}
    {name : String} {n : ℕ} (h : c.report? env = some (.createdDescriptor k name n)) :
    ∃ key : Key, c = .descriptor key ∧ key.cls = k := by
  cases c with
  | descriptor key =>
    obtain ⟨hcls, -, -⟩ := Event.createdDescriptor.inj (Option.some.inj h)
    exact ⟨key, rfl, hcls⟩
  | ownMembers key =>
    rw [report?] at h
    split_ifs at h
    cases h
  | search path signature =>
    rw [report?] at h
    cases hm : env.member? path <;> rw [hm] at h <;> cases h
  | _ => cases h

theorem Computation.eq_of_report?_composedMapping {c : Computation} {k : ClassId}
    {name : String} {n : ℕ} (h : c.report? env = some (.composedMapping k name n)) :
    c = .mapping k := by
  cases c with
  | mapping c =>
    obtain ⟨hclass, -, -⟩ := Event.composedMapping.inj (Option.some.inj h)
    rw [hclass]
  | ownMembers key =>
    rw [report?] at h
    split_ifs at h
    cases h
  | search path signature =>
    rw [report?] at h
    cases hm : env.member? path <;> rw [hm] at h <;> cases h
  | _ => cases h

/-- The descriptor of a class that is created is the only one of the class. -/
theorem Computes.nodup_creations (h : (start env.types).Computes env cs s)
    (hproper : ∀ c ∈ cs, c.IsProper env.types) : s.creations.Nodup := by
  -- the two descriptors that several classes may have are there from the start
  have hcls : ∀ key : Key, .descriptor key ∈ cs → Key.ofClass env.types key.cls = key := by
    intro key hkey
    obtain ⟨c, rfl⟩ := hproper _ hkey
    have hnew := h.new _ hkey
    rw [Has, mem_keys_start, not_or] at hnew
    rw [Key.cls_ofClass hnew.1 hnew.2]
  refine h.nodup_filterMap (fun e he => by cases e <;> first | rfl | cases he) ?_
  intro c hc c' hc' e e' k he he' hk hk'
  cases e with
  | createdDescriptor j name n =>
    cases e' with
    | createdDescriptor j' name' n' =>
      obtain rfl := Option.some.inj hk
      obtain rfl := Option.some.inj hk'
      obtain ⟨key, rfl, hkey⟩ := Computation.exists_of_report?_createdDescriptor he
      obtain ⟨key', rfl, hkey'⟩ := Computation.exists_of_report?_createdDescriptor he'
      rw [← hcls key hc, ← hcls key' hc', hkey, hkey']
    | _ => cases hk'
  | _ => cases hk

theorem Computes.nodup_compositions (h : (start env.types).Computes env cs s) :
    s.compositions.Nodup := by
  refine h.nodup_filterMap (fun e he => by cases e <;> first | rfl | cases he) ?_
  intro c _ c' _ e e' k he he' hk hk'
  cases e with
  | composedMapping j name n =>
    cases e' with
    | composedMapping j' name' n' =>
      obtain rfl := Option.some.inj hk
      obtain rfl := Option.some.inj hk'
      rw [Computation.eq_of_report?_composedMapping he,
        Computation.eq_of_report?_composedMapping he']
    | _ => cases hk'
  | _ => cases hk

/-! ### Runs of requests -/

theorem has_start (h : HostTypes) (c : Computation) :
    (start h).Has c ↔ c = .descriptor .object ∨ c = .descriptor .array := by
  cases c with
  | descriptor key => simpa [Has] using mem_keys_start h key
  | _ => simp [Has, start, memo]

theorem exists_account (hac : env.types.Acyclic) {requests : List Request}
    (hqueries : ∀ r ∈ requests, r.isQuery = true) : ∃ cs, Account env requests cs := by
  have hknows := knows_after hac requests
  obtain ⟨⟨cs, hcs, hproper⟩, hneeds⟩ := attains_append hac [] hqueries
  have hcs : (start env.types).Computes env cs (after env requests) := hcs
  refine ⟨cs, hcs.nodup, fun c => ?_, hcs.reports, hcs.nodup_creations hproper,
    hcs.nodup_compositions, fun r hr => ?_, fun more hmore => ?_⟩
  · rw [hcs.has, has_start, or_comm]
  · have hstate := perform_of_needs hac (hqueries r hr) hknows
      fun c hc => hneeds c (List.mem_flatMap.2 ⟨r, hr, hc⟩)
    exact Prod.ext (answer_reply hac requests r) ((reply_snd r _).trans hstate)
  · exact extends_of_has hknows (knows_after hac _) fun c =>
      (attains_append hac requests hmore).1.has

/-- **Replies do not depend on what was asked before, and nothing is worked out twice.**  In an
acyclic hierarchy a request gets the same reply after any two runs of requests.  Within a run, each
descriptor, table and mapping is worked out at most once, each search is made at most once, and each
of them is reported once; a request that is repeated gets its reply without an event, but for the
warnings of requests for types in the terms of a class. -/
theorem reply_eq_and_exists_account (env : Environment) (hac : env.types.Acyclic) :
    (∀ before before' r, answer env before (Request.reply env r)
      = answer env before' (Request.reply env r)) ∧
    ∀ requests : List Request, (∀ r ∈ requests, r.isQuery = true) →
      ∃ cs, Account env requests cs := by
  refine ⟨fun before before' r => ?_, fun requests => exists_account hac⟩
  rw [answer_reply hac, answer_reply hac]

/-- In `diamond`, members that are asked for after a mapping are those of a new session, and asking
for them has made the session work them out. -/
theorem reply_eq_and_exists_account_diamond :
    diamondEnvironment.types.Acyclic ∧
      answer diamondEnvironment [.mapping 18, .describe (some 17)]
          (Request.reply diamondEnvironment (.table .merged 18))
        = answer diamondEnvironment [] (Request.reply diamondEnvironment (.table .merged 18)) ∧
      (∀ r ∈ [Request.mapping 18, .table .merged 18], r.isQuery = true) ∧
      ∃ cs, Account diamondEnvironment [.mapping 18, .table .merged 18] cs ∧
        Computation.members (.general 18) ∈ cs := by
  obtain ⟨hreply, haccount⟩ := reply_eq_and_exists_account diamondEnvironment acyclic_diamond
  have hqueries : ∀ r ∈ [Request.mapping 18, .table .merged 18], r.isQuery = true := by
    simp [Request.isQuery]
  obtain ⟨cs, hcs⟩ := haccount _ hqueries
  have hhas : (after diamondEnvironment [.mapping 18, .table .merged 18]).Has
      (.members (.general 18)) :=
    (attains_append acyclic_diamond [] hqueries).2 _
      (List.mem_flatMap.2 ⟨.table .merged 18, by simp, List.mem_cons_of_mem _ (by simp; rfl)⟩)
  refine ⟨acyclic_diamond, hreply _ _ _, hqueries, cs, hcs, ?_⟩
  simpa using (hcs.has _).1 hhas

end Session

end ScriptSurface
