import Mathlib.Data.List.Basic
import ScriptSurface.Proofs.Member.Merge

/-!
# Walks that come by a type again

A walk may come to a type more than once, and its own members are merged each time.  Against the
walk of first visits only, `walk.eraseDups`, that changes nothing about names, fields, accessors and
signatures, nor about which overloads are hidden and what properties they stand for: these go by
what comes first or by what is there at all (`MemberTable.IsMerge.agrees_eraseDups`).

The callable behind a signature is the last one on the walk, and it may be another one after a
second visit.  The two merges are the same exactly when no signature's last callable changes
(`MemberTable.IsMerge.find?_eq_iff`).
-/

namespace ScriptSurface

/-! ### Own overloads -/

/-- The overload of a signature behind a name. -/
def MemberTable.overload? (t : MemberTable) (n : String) (σ : Signature) : Option Binding :=
  (t.find? n).bind fun s => s.overloads.find? σ

/-- Whether each overload in a table is kept under its own signature. -/
def MemberTable.WellKeyed (t : MemberTable) : Prop :=
  ∀ n σ b, t.overload? n σ = some b → b.signature = σ

section Walk

variable {κ : Type} [DecidableEq κ] {own : κ → MemberTable} {walk : List κ}

/-- The last callable on a walk to be an own overload of a signature behind a name. -/
def lastOverload? (own : κ → MemberTable) (walk : List κ) (n : String) (σ : Signature) :
    Option Executable :=
  (walk.reverse.findSome? fun k => (own k).overload? n σ).map Binding.executable

omit [DecidableEq κ] in
theorem findSome?_filterMap {β γ : Type} (f : κ → Option β) (g : β → Option γ) (walk : List κ) :
    (walk.filterMap f).findSome? g = walk.findSome? fun k => (f k).bind g := by
  induction walk with
  | nil => rfl
  | cons k walk ih =>
    rw [List.filterMap_cons, List.findSome?_cons, ← ih]
    cases f k <;> rfl

/-! ### Overloads of one signature -/

/-- What an overload says besides its callable. -/
def Binding.label (b : Binding) : Signature × Bool × Option String :=
  (b.signature, b.hidden, b.property)

theorem Binding.ext_label {a b : Binding} (hlabel : a.label = b.label)
    (hexecutable : a.executable = b.executable) : a = b := by
  obtain ⟨hsignature, hrest⟩ := Prod.mk.inj hlabel
  obtain ⟨hhidden, hproperty⟩ := Prod.mk.inj hrest
  cases a; cases b
  simp_all

theorem any_filterMap_eraseDups {β : Type} (f : κ → Option β) (p : β → Bool) (walk : List κ) :
    (walk.eraseDups.filterMap f).any p = (walk.filterMap f).any p := by
  rw [Bool.eq_iff_iff, List.any_eq_true, List.any_eq_true]
  simp [List.mem_filterMap, List.mem_eraseDups]

theorem filterMap_eraseDups_eq_nil {β : Type} (f : κ → Option β) (walk : List κ) :
    walk.eraseDups.filterMap f = [] ↔ walk.filterMap f = [] := by
  rw [List.filterMap_eq_nil_iff, List.filterMap_eq_nil_iff]
  simp [List.mem_eraseDups]

/-- Second visits change the callable of an overload at most. -/
theorem Binding.map_label_merge?_eraseDups {f : κ → Option Binding} {σ : Signature}
    (hf : ∀ k b, f k = some b → b.signature = σ) (walk : List κ) :
    (merge? (walk.eraseDups.filterMap f)).map label = (merge? (walk.filterMap f)).map label := by
  -- only whether there is an overload at all hangs on the last one
  have hlabel : ∀ walk : List κ, (merge? (walk.filterMap f)).map label
      = (walk.filterMap f).getLast?.map fun _ => (σ, (walk.filterMap f).any Binding.hidden,
          walk.findSome? fun k => (f k).bind Binding.property) := by
    intro walk
    rw [merge?, Option.map_map, findSome?_filterMap]
    refine Option.map_congr fun b hb => ?_
    obtain ⟨k, -, hk⟩ := List.mem_filterMap.1 (List.mem_of_getLast? hb)
    exact Prod.ext (hf k b hk) rfl
  rw [hlabel, hlabel, any_filterMap_eraseDups, findSome?_eraseDups]
  cases hl : (walk.filterMap f).getLast? with
  | none =>
    rw [List.getLast?_eq_none_iff] at hl
    rw [(filterMap_eraseDups_eq_nil f walk).2 hl]
    rfl
  | some b =>
    cases hl' : (walk.eraseDups.filterMap f).getLast? with
    | none =>
      rw [List.getLast?_eq_none_iff, filterMap_eraseDups_eq_nil] at hl'
      rw [hl'] at hl
      cases hl
    | some b' => rfl

theorem Binding.map_executable_merge? (bs : List Binding) :
    (merge? bs).map executable = bs.getLast?.map executable := by
  rw [merge?, Option.map_map]
  rfl

/-! ### Slots and tables -/

/-- The slots agree on everything but the callables of their overloads. -/
structure Slot.Agrees (s s' : Slot) : Prop where
  /-- The fields are the same. -/
  field : s.field = s'.field
  /-- The getters are the same. -/
  getter : s.getter = s'.getter
  /-- The setters are the same. -/
  setter : s.setter = s'.setter
  /-- The signatures are the same and in the same order. -/
  signatures : s.overloads.keys = s'.overloads.keys
  /-- Overloads are hidden, and stand for a property, in both or in neither. -/
  labels : ∀ σ, (s.overloads.find? σ).map Binding.label = (s'.overloads.find? σ).map Binding.label

/-- Slots that agree are the same if the callables of their overloads are. -/
theorem Slot.Agrees.eq_of_executables {s s' : Slot} (h : s.Agrees s')
    (hexecutable : ∀ σ, (s.overloads.find? σ).map Binding.executable
      = (s'.overloads.find? σ).map Binding.executable) : s = s' := by
  have hoverloads : s.overloads = s'.overloads := by
    refine Assoc.ext_find? h.signatures fun σ => ?_
    have hlabel := h.labels σ
    have hexec := hexecutable σ
    cases hb : s.overloads.find? σ with
    | none =>
      rw [hb] at hlabel
      exact (Option.map_eq_none_iff.1 hlabel.symm).symm
    | some b =>
      rw [hb] at hlabel hexec
      obtain ⟨b', hb', hlabel'⟩ := Option.map_eq_some_iff.1 hlabel.symm
      rw [hb'] at hexec
      rw [hb', Binding.ext_label hlabel'.symm (Option.some.inj hexec)]
  have hfield := h.field
  have hgetter := h.getter
  have hsetter := h.setter
  cases s; cases s'
  simp_all

/-- The tables have the same names, with slots behind them that agree. -/
def MemberTable.Agrees (t t' : MemberTable) : Prop :=
  ∀ n, Option.Rel Slot.Agrees (t.find? n) (t'.find? n)

namespace MemberTable

variable {t t' : MemberTable}

omit [DecidableEq κ] in
theorem IsMerge.overload?_eq (h : t.IsMerge (walk.map own)) (n : String) (σ : Signature) :
    t.overload? n σ = Binding.merge? (walk.filterMap fun k => (own k).overload? n σ) := by
  have hwalk : ∀ walk : List κ, walk.filterMap (fun k => (own k).overload? n σ)
      = ((walk.map own).filterMap fun o => o.find? n).filterMap fun s => s.overloads.find? σ := by
    intro walk
    rw [List.filterMap_map, List.filterMap_filterMap]
    rfl
  rw [hwalk, overload?]
  cases hn : t.find? n with
  | none =>
    rw [h.filterMap_eq_nil hn]
    rfl
  | some s => exact (h.slots n s hn).overload σ

omit [DecidableEq κ] in
theorem flatMap_filterMap_keys (own : κ → MemberTable) (walk : List κ) (n : String) :
    (((walk.map own).filterMap fun o => o.find? n).flatMap fun s => s.overloads.keys)
      = walk.flatMap fun k => (((own k).find? n).map fun s => s.overloads.keys).getD [] := by
  induction walk with
  | nil => rfl
  | cons k walk ih =>
    rw [List.map_cons, List.filterMap_cons, List.flatMap_cons, ← ih]
    cases (own k).find? n <;> rfl

/-- Apart from the callables of overloads, a merge is that of the first visits. -/
theorem IsMerge.agrees_eraseDups (hown : ∀ k, (own k).WellKeyed)
    (h : t.IsMerge (walk.map own)) (h' : t'.IsMerge (walk.eraseDups.map own)) : t.Agrees t' := by
  intro n
  have hnone : t.find? n = none ↔ t'.find? n = none := by
    rw [← Option.not_isSome_iff_eq_none, ← Option.not_isSome_iff_eq_none,
      Assoc.isSome_find?_iff, Assoc.isSome_find?_iff, h.names, h'.names]
    simp [List.mem_eraseDups]
  cases hn : t.find? n with
  | none =>
    rw [hnone.1 hn]
    exact .none
  | some s =>
    obtain ⟨s', hn'⟩ := Option.ne_none_iff_exists'.1 fun hn' => by
      rw [hnone.2 hn'] at hn
      cases hn
    have hs := h.slots n s hn
    have hs' := h'.slots n s' hn'
    -- what goes by the first slot that has something
    have hfirst : ∀ {β : Type} (f : Slot → Option β),
        ((walk.map own).filterMap fun o => o.find? n).findSome? f
          = ((walk.eraseDups.map own).filterMap fun o => o.find? n).findSome? f := by
      intro β f
      rw [List.filterMap_map, List.filterMap_map, findSome?_filterMap,
        findSome?_filterMap, findSome?_eraseDups]
    rw [hn']
    refine .some ⟨?_, ?_, ?_, ?_, fun σ => ?_⟩
    · rw [hs.field, hs'.field, hfirst]
    · rw [hs.getter, hs'.getter, hfirst]
    · rw [hs.setter, hs'.setter, hfirst]
    · rw [hs.signatures, hs'.signatures, flatMap_filterMap_keys, flatMap_filterMap_keys,
        eraseDups_flatMap_eraseDups]
    · have hmerge := h.overload?_eq n σ
      have hmerge' := h'.overload?_eq n σ
      rw [overload?, hn, Option.bind_some] at hmerge
      rw [overload?, hn', Option.bind_some] at hmerge'
      rw [hmerge, hmerge', Binding.map_label_merge?_eraseDups fun k b hb => hown k n σ b hb]

omit [DecidableEq κ] in
theorem IsMerge.map_executable_overload? (h : t.IsMerge (walk.map own)) (n : String)
    (σ : Signature) : (t.overload? n σ).map Binding.executable = lastOverload? own walk n σ := by
  rw [h.overload?_eq, Binding.map_executable_merge?, List.getLast?_filterMap, lastOverload?]

/-- A merge is that of the first visits exactly if the last callable of each signature is. -/
theorem IsMerge.find?_eq_iff (hown : ∀ k, (own k).WellKeyed) (h : t.IsMerge (walk.map own))
    (h' : t'.IsMerge (walk.eraseDups.map own)) :
    (∀ n, t.find? n = t'.find? n) ↔
      ∀ n σ, lastOverload? own walk n σ = lastOverload? own walk.eraseDups n σ := by
  constructor
  · intro heq n σ
    rw [← h.map_executable_overload?, ← h'.map_executable_overload?, overload?, overload?, heq]
  · intro hlast n
    have hagrees := h.agrees_eraseDups hown h' n
    have hexecutable : ∀ σ, (t.overload? n σ).map Binding.executable
        = (t'.overload? n σ).map Binding.executable := by
      intro σ
      rw [h.map_executable_overload?, h'.map_executable_overload?, hlast]
    unfold overload? at hexecutable
    generalize t.find? n = o at hagrees hexecutable ⊢
    generalize t'.find? n = o' at hagrees hexecutable ⊢
    cases hagrees with
    | none => rfl
    | some hslots => rw [Slot.Agrees.eq_of_executables hslots hexecutable]

end MemberTable

end Walk

end ScriptSurface
