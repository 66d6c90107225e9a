import ScriptSurface.Proofs.Session.Computations

/-!
# Searches that a session makes

A dispatch in a session makes no computation but a search (`Session.computesOnly_resolve`).  It
makes none if an overload has the very signature of the call, or if a search for it was made before,
and then it leaves the session as it is but for a place to remember things in (`resolve_of_known`).
-/

namespace ScriptSurface

open Descriptor (Key)

namespace Session

variable {env : Environment} {path : MemberPath} {m : Member} {signature : Signature} {s : Session}

/-- The session with a place for what is remembered of a member. -/
def opened (s : Session) (path : MemberPath) : Session :=
  { s with memos := s.memos.put path (s.memo path) }

theorem memo_opened (s : Session) (path path' : MemberPath) :
    (s.opened path).memo path' = s.memo path' := by
  rw [opened, memo_put s path path' (s.memo path) s.events]
  split_ifs with h
  · rw [h]
  · rfl

theorem has_opened (s : Session) (path : MemberPath) (c : Computation) :
    (s.opened path).Has c ↔ s.Has c ∨ c = .memo path := by
  cases c with
  | search path' signature' => simp [Has, memo_opened]
  | _ => simp [Has, opened, Assoc.mem_keys_put, or_comm]

theorem computesOnly_opened (env : Environment) (s : Session) (path : MemberPath) :
    s.ComputesOnly env {.memo path} (s.opened path) := by
  have hreports : (s.opened path).reports = s.reports := rfl
  have hrecalls : s.Recalls env → (s.opened path).Recalls env := fun h path' m hm => by
    rw [memo_opened]
    exact h path' m hm
  by_cases hthere : s.Has (.memo path)
  · refine .idle (fun c => ?_) hreports hrecalls
    rw [has_opened]
    exact ⟨fun h => h.elim id (· ▸ hthere), .inl⟩
  · refine (Computes.single hthere (has_opened s path) ?_ hrecalls).only (by simp)
    exact hreports.trans (List.append_nil _).symm

/-- Where an overload has the very signature, or the end of a search is remembered, no search is
made. -/
theorem resolve_of_known
    (h : m.slot.hasExact signature = true ∨ s.Has (.search path signature)) :
    (resolve env path m signature s).2 = s.opened path := by
  show (noteSearch m signature (m.slot.resolve env.accepts signature (s.memo path)).1
    { s with
      memos := s.memos.put path (m.slot.resolve env.accepts signature (s.memo path)).2 }).2 = _
  unfold Slot.resolve
  rcases m.slot.exactMatch?_cases env.accepts signature with
    ⟨-, hexact, hsome⟩ | ⟨hnot, hexact, -⟩
  · obtain ⟨b, hb⟩ := Option.isSome_iff_exists.1 hsome
    rw [hexact, hb]
    rfl
  · obtain ⟨found, hfound⟩ := Assoc.exists_find?_of_mem_keys
      (h.resolve_left fun hhas => by rw [hnot] at hhas; cases hhas)
    rw [hexact, hfound]
    rfl

/-- The session after a search, with what it ends with. -/
def searched (env : Environment) (s : Session) (path : MemberPath) (m : Member)
    (signature : Signature) : Session :=
  { s with
    memos := s.memos.put path ((s.memo path).put signature (m.slot.select env.accepts signature))
    events := s.events ++ [.searchedOverloads m.ownerName m.name signature
      ((m.slot.select env.accepts signature).map Binding.signature)] }

/-- Where neither is the case, a search is made. -/
theorem resolve_of_new (hexact : m.slot.hasExact signature = false)
    (hnew : ¬s.Has (.search path signature)) :
    (resolve env path m signature s).2 = s.searched env path m signature ∧
      (m.slot.resolve env.accepts signature (s.memo path)).2
        = (s.memo path).put signature (m.slot.select env.accepts signature) := by
  have hresolve : (resolve env path m signature s).2
      = (noteSearch m signature (m.slot.resolve env.accepts signature (s.memo path)).1
        { s with
          memos := s.memos.put path
            (m.slot.resolve env.accepts signature (s.memo path)).2 }).2 := rfl
  have hnone : (s.memo path).find? signature = none := Assoc.find?_eq_none_of_notMem hnew
  rw [hresolve, searched]
  unfold Slot.resolve
  rcases m.slot.exactMatch?_cases env.accepts signature with ⟨hhas, -⟩ | ⟨-, hmatch, hselect⟩
  · rw [hexact] at hhas
    cases hhas
  · rw [hmatch, hnone, hselect, ← Slot.firstAccepting?_visible]
    exact ⟨rfl, rfl⟩

theorem has_searched (s : Session) (path : MemberPath) (m : Member) (signature : Signature)
    (c : Computation) :
    (s.searched env path m signature).Has c ↔
      (s.opened path).Has c ∨ c = .search path signature := by
  cases c with
  | search path' signature' =>
    simp only [Has, searched, memo_put, memo_opened, Computation.search.injEq]
    split_ifs with hpath
    · simp [Assoc.mem_keys_put, hpath, or_comm]
    · simp [Ne.symm hpath]
  | memo path' => simp [Has, searched, opened, Assoc.mem_keys_put]
  | _ => simp [Has, searched, opened]

theorem recalls_searched (hm : env.member? path = some m)
    (hexact : m.slot.hasExact signature = false) (hnew : ¬s.Has (.search path signature))
    (h : s.Recalls env) : (s.searched env path m signature).Recalls env := by
  intro path' m' hm'
  rw [searched, memo_put]
  split_ifs with hpath
  · subst hpath
    obtain rfl := Option.some.inj (hm.symm.trans hm')
    obtain ⟨requested, hrecords⟩ := h path m hm
    rw [← (resolve_of_new hexact hnew).2]
    exact ⟨requested ++ [signature], hrecords.resolve signature⟩
  · exact h path' m' hm'

/-- A search is made only if no overload has the very signature and none was made before. -/
theorem computesOnly_resolve (hm : env.member? path = some m) (signature : Signature)
    (s : Session) :
    s.ComputesOnly env {.memo path, .search path signature} (resolve env path m signature s).2 ∧
      (resolve env path m signature s).2.Has (.memo path) ∧
      (m.slot.hasExact signature = false →
        (resolve env path m signature s).2.Has (.search path signature)) := by
  have hopened := computesOnly_opened env s path
  have hplace : (s.opened path).Has (.memo path) := (has_opened s path _).2 (.inr rfl)
  by_cases hknown : m.slot.hasExact signature = true ∨ s.Has (.search path signature)
  · rw [resolve_of_known hknown]
    refine ⟨hopened.mono (by simp), hplace, fun hexact => (has_opened s path _).2 (.inl ?_)⟩
    exact hknown.resolve_left (by simp [hexact])
  · obtain ⟨hexact, hnew⟩ := not_or.1 hknown
    rw [Bool.not_eq_true] at hexact
    have hrecalls : (s.opened path).Recalls env →
        (s.searched env path m signature).Recalls env := by
      refine fun h => recalls_searched hm hexact hnew fun path' m' hm' => ?_
      rw [← memo_opened s path]
      exact h path' m' hm'
    have hreports : (s.searched env path m signature).reports
        = (s.opened path).reports ++ ((Computation.search path signature).report? env).toList := by
      rw [Computation.report?, hm]
      exact reports_append s rfl
    obtain ⟨honly, hsearch⟩ := hopened.store (B := {.memo path, .search path signature}) (by simp)
      (by simp) (by simp) hnew (has_searched s path m signature) hreports hrecalls
    rw [(resolve_of_new hexact hnew).1]
    exact ⟨honly, (has_searched s path m signature _).2 (.inl hplace), fun _ => hsearch⟩

theorem choose_of_hasVisible (hvisible : m.slot.hasVisible = true) :
    (choose env path m signature s).2 = (resolve env path m signature s).2 := by
  show ((m.choose env.accepts signature (s.memo path)).1.forM (noteSearch m signature)
    { s with
      memos := s.memos.put path (m.choose env.accepts signature (s.memo path)).2 }).2 = _
  rw [m.choose_of_hasVisible hvisible]
  rfl

/-- A call of a member that has no overload for scripts is not dispatched. -/
theorem choose_of_not_hasVisible (hvisible : m.slot.hasVisible = false) :
    (choose env path m signature s).2 = s.opened path := by
  show ((m.choose env.accepts signature (s.memo path)).1.forM (noteSearch m signature)
    { s with
      memos := s.memos.put path (m.choose env.accepts signature (s.memo path)).2 }).2 = _
  rw [m.choose_of_not_hasVisible hvisible]
  rfl

theorem computesOnly_choose (hm : env.member? path = some m) (signature : Signature)
    (s : Session) :
    s.ComputesOnly env {.memo path, .search path signature} (choose env path m signature s).2 ∧
      (choose env path m signature s).2.Has (.memo path) ∧
      (m.slot.hasVisible = true → m.slot.hasExact signature = false →
        (choose env path m signature s).2.Has (.search path signature)) := by
  cases hvisible : m.slot.hasVisible with
  | true =>
    rw [choose_of_hasVisible hvisible]
    simpa using computesOnly_resolve hm signature s
  | false =>
    rw [choose_of_not_hasVisible hvisible]
    have hopened := computesOnly_opened env s path
    exact ⟨hopened.mono (by simp), (has_opened s path _).2 (.inr rfl), nofun⟩

end Session

end ScriptSurface
