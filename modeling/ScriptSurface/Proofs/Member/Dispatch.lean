import Mathlib.Data.List.Induction
import ScriptSurface.Member.Access
import ScriptSurface.Proofs.Assoc

/-!
# What dispatch remembers makes no difference

`Slot.select` is dispatch without a memory: the overload with exactly the signature of the call if
scripts can call it, else the first overload that scripts can call and that takes the call.

A member is asked to resolve or to invoke calls, in any order (`Member.Call`), and
`Member.memoAfter` is what is remembered then.  The invariant is `Memo.Records`: what is remembered
are the signatures asked for that no overload has exactly, each with what is selected for it.  It
holds of the empty memo, each dispatch keeps it (`Memo.Records.resolve`), and under it dispatch
answers what is selected (`Memo.Records.binding_resolve`) and searches for no signature twice
(`Memo.Records.route_ne_searched`).
-/

namespace ScriptSurface

/-! ### Dispatch without a memory -/

namespace Slot

variable (accepts : Signature → Signature → Bool) (slot : Slot) (s : Signature)

/-- Whether scripts can call an overload with exactly the given signature. -/
def hasExact : Bool := (slot.overloads.find? s).any fun b => !b.hidden

/-- The first overload that scripts can call and that takes a call. -/
def search : Option Binding :=
  slot.overloads.values.find? fun b => !b.hidden && accepts b.signature s

/-- The overload a call goes to when nothing is remembered. -/
def select : Option Binding :=
  match slot.overloads.find? s with
  | some b => if b.hidden then slot.search accepts s else some b
  | none => slot.search accepts s

theorem firstAccepting?_visible :
    firstAccepting? accepts s slot.visible = slot.search accepts s := by
  unfold firstAccepting? visible search
  rw [List.find?_filter]
  simp [Binding.isVisible]

/-- What dispatch takes for an exact match is what is selected as one. -/
theorem exactMatch?_cases :
    (slot.hasExact s = true ∧ slot.exactMatch? s = slot.select accepts s ∧
        (slot.select accepts s).isSome) ∨
      (slot.hasExact s = false ∧ slot.exactMatch? s = none ∧
        slot.select accepts s = slot.search accepts s) := by
  unfold exactMatch? hasExact select
  cases slot.overloads.find? s with
  | none => exact .inr ⟨rfl, rfl, rfl⟩
  | some b =>
    by_cases hb : b.hidden = true
    · right
      simp [hb, Binding.isVisible]
    · left
      simp [hb, Binding.isVisible]

/-- Nothing that is kept from scripts is ever selected. -/
theorem hidden_of_select {b : Binding} (h : slot.select accepts s = some b) :
    b.hidden = false := by
  have hsearch : slot.search accepts s = some b → b.hidden = false := by
    intro h
    have hb := List.find?_some h
    simp only [Bool.and_eq_true, Bool.not_eq_true'] at hb
    exact hb.1
  unfold select at h
  split at h
  · split_ifs at h with hhidden
    · exact hsearch h
    · obtain rfl := Option.some.inj h
      simpa using hhidden
  · exact hsearch h

end Slot

/-! ### What is remembered -/

/-- What is remembered once calls of some signatures were dispatched: those that no overload has
exactly, each with what is selected for it. -/
structure Memo.Records (accepts : Signature → Signature → Bool) (slot : Slot)
    (requested : List Signature) (memo : Memo) : Prop where
  /-- The signatures that a search was made for, in the order of their first requests. -/
  keys : memo.keys = (requested.filter fun s => !slot.hasExact s).eraseDups
  /-- What a search ended with is what is selected. -/
  values : memo.Keeps (slot.select accepts)

namespace Memo.Records

variable {accepts : Signature → Signature → Bool} {slot : Slot} {requested : List Signature}
  {memo : Memo} {s : Signature}

theorem empty (accepts : Signature → Signature → Bool) (slot : Slot) :
    Records accepts slot [] ∅ where
  keys := rfl
  values := Assoc.keeps_empty _

/-- A signature is remembered if it was asked for and no overload has it exactly. -/
theorem mem_keys_iff (h : memo.Records accepts slot requested) :
    s ∈ memo.keys ↔ s ∈ requested ∧ slot.hasExact s = false := by
  rw [h.keys, List.mem_eraseDups, List.mem_filter, Bool.not_eq_true']

/-- The number of signatures remembered. -/
theorem size_eq (h : memo.Records accepts slot requested) :
    memo.size = ((requested.filter fun s => !slot.hasExact s).eraseDups).length := by
  rw [Assoc.size_eq_length_keys, h.keys]

/-- Dispatch answers what is selected, remembered or not. -/
theorem binding_resolve (h : memo.Records accepts slot requested) (s : Signature) :
    (slot.resolve accepts s memo).1.binding = slot.select accepts s := by
  unfold Slot.resolve
  rcases slot.exactMatch?_cases accepts s with ⟨-, hexact, hsome⟩ | ⟨-, hnone, hselect⟩
  · obtain ⟨b, hb⟩ := Option.isSome_iff_exists.1 hsome
    rw [hexact, hb]
  · rw [hnone]
    dsimp only
    cases hfound : memo.find? s with
    | some found => exact h.values s found hfound
    | none =>
      show Slot.firstAccepting? accepts s slot.visible = _
      rw [Slot.firstAccepting?_visible, hselect]

/-- A search is made only for a signature that was not asked for before. -/
theorem route_ne_searched (h : memo.Records accepts slot requested) (hs : s ∈ requested) (n : ℕ) :
    (slot.resolve accepts s memo).1.route ≠ .searched n := by
  unfold Slot.resolve
  rcases slot.exactMatch?_cases accepts s with ⟨-, hexact, hsome⟩ | ⟨hnot, hnone, -⟩
  · obtain ⟨b, hb⟩ := Option.isSome_iff_exists.1 hsome
    rw [hexact, hb]
    exact nofun
  · have hmem : s ∈ memo.keys := h.mem_keys_iff.2 ⟨hs, hnot⟩
    obtain ⟨found, hfound⟩ := Option.isSome_iff_exists.1 ((memo.isSome_find?_iff s).2 hmem)
    rw [hnone, hfound]
    exact nofun

/-- One more dispatch is one more request. -/
theorem resolve (h : memo.Records accepts slot requested) (s : Signature) :
    (slot.resolve accepts s memo).2.Records accepts slot (requested ++ [s]) := by
  have hunchanged (hs : ((requested ++ [s]).filter fun s => !slot.hasExact s).eraseDups
      = (requested.filter fun s => !slot.hasExact s).eraseDups) :
      memo.Records accepts slot (requested ++ [s]) := ⟨h.keys.trans hs.symm, h.values⟩
  unfold Slot.resolve
  rcases slot.exactMatch?_cases accepts s with ⟨hhas, hexact, hsome⟩ | ⟨hnot, hnone, hselect⟩
  · obtain ⟨b, hb⟩ := Option.isSome_iff_exists.1 hsome
    rw [hexact, hb]
    refine hunchanged ?_
    simp [List.filter_append, hhas]
  · -- no overload has the signature exactly, so it counts among those remembered
    have hkeys : ((requested ++ [s]).filter fun s => !slot.hasExact s).eraseDups
        = (memo.keys ++ [s]).eraseDups := by
      rw [h.keys, eraseDups_eraseDups_append, List.filter_append]
      simp [hnot]
    rw [hnone]
    dsimp only
    cases hfound : memo.find? s with
    | some found =>
      have hmem : s ∈ memo.keys := (memo.isSome_find?_iff s).1 (by rw [hfound]; rfl)
      refine hunchanged ?_
      rw [hkeys, List.eraseDups_append, eraseDups_of_nodup memo.keys_nodup, ← h.keys]
      simp [List.removeAll, hmem]
    | none =>
      refine ⟨?_, h.values.put ?_⟩
      · rw [hkeys]
        exact Assoc.keys_alter memo s fun _ => Slot.firstAccepting? accepts s slot.visible
      · rw [Slot.firstAccepting?_visible, hselect]

end Memo.Records

/-! ### Runs of calls -/

namespace Member

variable {ω σ ε : Type}

/-- Something asked of a member that involves dispatch. -/
inductive Call (ω : Type) where
  /-- What a call would be dispatched to. -/
  | resolve (s : Signature)
  /-- To make a call. -/
  | invoke (s : Signature) (receiver : Option ω) (args : List (Option ω))

/-- The signature by which something asked of a member is dispatched.  A call of a member that has
no overload for scripts is not dispatched at all. -/
def Call.dispatched? (m : Member) : Call ω → Option Signature
  | resolve s => some s
  | invoke s _ _ => if m.slot.hasVisible then some s else none

/-- What is remembered after something was asked of a member. -/
def Call.remember (env : Environment) (host : Host ω σ ε) (m : Member) (memo : Memo) :
    Call ω → Memo
  | resolve s => (m.slot.resolve env.accepts s memo).2
  | invoke s receiver args => (m.invoke env host s receiver args memo).2

/-- What is remembered of a member after a run of calls. -/
def memoAfter (env : Environment) (host : Host ω σ ε) (m : Member) (calls : List (Call ω)) : Memo :=
  calls.foldl (Call.remember env host m) ∅

/-- Makes a call of a member without a memory. -/
def invokeAfresh (env : Environment) (host : Host ω σ ε) (m : Member) (s : Signature)
    (receiver : Option ω) (args : List (Option ω)) : Use σ ε (Lookup ω) :=
  if m.slot.hasVisible then
    match m.slot.select env.accepts s with
    | some b => do
      return .present (← perform host m.ownerName m.name (.call b.executable receiver args))
    | none => throw (.notApplicable m.ownerName m.name (s.display env.types))
  else return .absent

variable (env : Environment) (host : Host ω σ ε) (m : Member)

theorem choose_of_hasVisible {accepts : Signature → Signature → Bool}
    (hvisible : m.slot.hasVisible = true) (s : Signature) (memo : Memo) :
    m.choose accepts s memo
      = (some (m.slot.resolve accepts s memo).1, (m.slot.resolve accepts s memo).2) := by
  unfold choose
  rw [if_pos hvisible]
  rfl

theorem choose_of_not_hasVisible {accepts : Signature → Signature → Bool}
    (hvisible : m.slot.hasVisible = false) (s : Signature) (memo : Memo) :
    m.choose accepts s memo = (none, memo) := by
  unfold choose
  rw [if_neg (by simp [hvisible])]
  rfl

/-- What is remembered after a run records what was dispatched. -/
theorem records_memoAfter (calls : List (Call ω)) :
    (m.memoAfter env host calls).Records env.accepts m.slot
      (calls.filterMap (Call.dispatched? m)) := by
  induction calls using List.reverseRecOn with
  | nil => exact .empty env.accepts m.slot
  | append_singleton calls call ih =>
    rw [memoAfter, List.foldl_append, List.filterMap_append]
    cases call with
    | resolve s => exact ih.resolve s
    | invoke s receiver args =>
      show (m.choose env.accepts s (m.memoAfter env host calls)).2.Records _ _ _
      cases hvisible : m.slot.hasVisible with
      | true =>
        rw [choose_of_hasVisible m hvisible]
        simpa [Call.dispatched?, hvisible] using ih.resolve s
      | false =>
        rw [choose_of_not_hasVisible m hvisible]
        simpa [Call.dispatched?, hvisible] using ih

/-- A call that is made is made on the overload that is selected. -/
theorem invoke_eq_invokeAfresh {requested : List Signature} {memo : Memo}
    (h : memo.Records env.accepts m.slot requested) (s : Signature) (receiver : Option ω)
    (args : List (Option ω)) :
    (m.invoke env host s receiver args memo).1 = m.invokeAfresh env host s receiver args := by
  show m.invokeChosen host _ (m.choose env.accepts s memo).1 receiver args = _
  unfold invokeAfresh
  cases hvisible : m.slot.hasVisible with
  | true =>
    rw [choose_of_hasVisible m hvisible, if_pos rfl, ← h.binding_resolve s]
    cases hbinding : (m.slot.resolve env.accepts s memo).1.binding with
    | none => simp only [invokeChosen, hbinding]
    | some b => simp only [invokeChosen, hbinding]
  | false =>
    rw [choose_of_not_hasVisible m hvisible, if_neg Bool.false_ne_true]
    rfl

/-- **What dispatch remembers makes no difference.**  After any run of calls, a call is resolved to
and made on the overload that is selected without a memory, which is never one kept from scripts; a
signature that was dispatched before is not searched for again; and there are as many signatures
remembered as were dispatched without there being an overload that has them exactly. -/
theorem dispatch_eq_select (calls : List (Call ω)) :
    (∀ s, (m.slot.resolve env.accepts s (m.memoAfter env host calls)).1.binding
      = m.slot.select env.accepts s) ∧
    (∀ s receiver args, (m.invoke env host s receiver args (m.memoAfter env host calls)).1
      = m.invokeAfresh env host s receiver args) ∧
    (∀ s b, m.slot.select env.accepts s = some b → b.hidden = false) ∧
    (∀ s, s ∈ calls.filterMap (Call.dispatched? m) → ∀ n,
      (m.slot.resolve env.accepts s (m.memoAfter env host calls)).1.route ≠ .searched n ∧
      ∀ r, (m.choose env.accepts s (m.memoAfter env host calls)).1 = some r →
        r.route ≠ .searched n) ∧
    (m.memoAfter env host calls).size
      = ((calls.filterMap (Call.dispatched? m)).filter
          fun s => !m.slot.hasExact s).eraseDups.length := by
  have h := m.records_memoAfter env host calls
  refine ⟨h.binding_resolve, m.invoke_eq_invokeAfresh env host h, ?_, ?_, h.size_eq⟩
  · exact fun s b => m.slot.hidden_of_select env.accepts s
  · intro s hs n
    have hroute := h.route_ne_searched hs n
    refine ⟨hroute, fun r hr => ?_⟩
    -- a call that is made is dispatched as it would be resolved, if it is dispatched at all
    cases hvisible : m.slot.hasVisible with
    | true =>
      rw [choose_of_hasVisible m hvisible] at hr
      obtain rfl := Option.some.inj hr
      exact hroute
    | false =>
      rw [choose_of_not_hasVisible m hvisible] at hr
      cases hr

end Member

end ScriptSurface
