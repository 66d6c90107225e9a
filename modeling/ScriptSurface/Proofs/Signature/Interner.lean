import Mathlib.Data.Finset.Card
import Mathlib.Data.List.Forall2
import Mathlib.Data.List.Induction
import ScriptSurface.Proofs.Assoc
import ScriptSurface.Proofs.Order
import ScriptSurface.Signature.Interner

/-!
# Interned signatures are shared

An interner is asked for signatures, in any order (`Interner.Call`): for that of a list of types, or
for a handle that was made anywhere.  `Interner.answers` is what it answers and what it has stored
then.  The answers are one and the same handle exactly where the types are the same
(`Interner.answers_same_iff`).

Two facts carry this.  What is stored are the signatures asked for that are not common, each under
itself (`Interner.Records`), and nothing stored is ever replaced (`Interner.find?_intern`).  So
every answer is still what the interner has stored in the end, unless it is common
(`Interner.StandsFor`).
-/

namespace ScriptSurface

namespace Signature

/-- Only a signature compares as equal to itself. -/
theorem order_eq_iff (a b : Signature) : a.order b = .eq ↔ a.types = b.types := by
  constructor
  · intro h
    exact Std.LawfulEqCmp.eq_of_compare h
  · intro h
    unfold order
    rw [h]
    exact Std.ReflCmp.compare_self

theorem types_of_single? {c : ClassId} {s : Signature} (h : single? c = some s) :
    s.types = [c] := by
  unfold single? at h
  split_ifs at h
  obtain rfl := Option.some.inj h
  rfl

namespace Handle

theorem types_of (types : List ClassId) (number : ℕ) :
    (of types number).signature.types = types := by
  match types with
  | [] => rfl
  | [c] =>
    simp only [of]
    split
    · next hs => exact types_of_single? hs
    · rfl
  | _ :: _ :: _ => rfl

/-- The number matters unless the signature is common. -/
theorem number_of (types : List ClassId) (number : ℕ) :
    (of types number).number = if (Signature.mk types).isCommon then 0 else number := by
  match types with
  | [] => rfl
  | [c] =>
    have hcommon : (Signature.mk [c]).isCommon = (single? c).isSome := rfl
    simp only [of]
    split
    · next hs => rw [if_pos (by rw [hcommon, hs]; rfl)]
    · next hs => rw [if_neg (by rw [hcommon, hs]; exact Bool.false_ne_true)]
  | _ :: _ :: _ => rfl

/-- What is made does not depend on the number exactly if the signature is common. -/
theorem of_eq_of_iff (types : List ClassId) (m n : ℕ) :
    of types m = of types n ↔ m = n ∨ (Signature.mk types).isCommon = true := by
  rw [Handle.mk.injEq, Signature.mk.injEq, types_of, types_of, number_of, number_of]
  cases (Signature.mk types).isCommon with
  | true => simp
  | false => simp

/-- Every handle is one that was made. -/
theorem eq_of (a : Handle) : a = of a.signature.types a.number := by
  rw [Handle.mk.injEq, Signature.mk.injEq, types_of, number_of]
  refine ⟨rfl, ?_⟩
  split_ifs with hcommon
  · exact a.number_eq_zero hcommon
  · rfl

/-- There is only one handle of a common signature. -/
theorem eq_of_isCommon {a b : Handle} (h : a.signature = b.signature)
    (hcommon : a.signature.isCommon = true) : a = b := by
  have hnumber : a.number = b.number := by
    rw [a.number_eq_zero hcommon, b.number_eq_zero (h ▸ hcommon)]
  rw [Handle.mk.injEq]
  exact ⟨h, hnumber⟩

theorem same_eq_true_iff (a b : Handle) : a.same b = true ↔ a = b := decide_eq_true_iff

/-- The short cuts do no harm: what is one and the same has the same types, and what has the same
types has the same hash. -/
theorem equal_iff (hash : List ClassId → UInt64) (a b : Handle) :
    a.equal hash b = true ↔ a.signature.types = b.signature.types := by
  unfold equal
  rw [Bool.or_eq_true, Bool.and_eq_true, decide_eq_true_iff, decide_eq_true_iff,
    same_eq_true_iff]
  constructor
  · rintro (rfl | ⟨-, htypes⟩)
    · rfl
    · exact htypes
  · intro htypes
    exact .inr ⟨congrArg hash htypes, htypes⟩

end Handle

end Signature

open Signature (Handle)

namespace Interner

/-! ### Calls -/

/-- Something asked of an interner. -/
inductive Call where
  /-- The signature of a list of types, which is made under the given number if it is not there. -/
  | of (types : List ClassId) (number : ℕ)
  /-- The signature of a handle, which was made somewhere (`Handle.eq_of`). -/
  | intern (a : Handle)

namespace Call

/-- The handle that is put to the interner. -/
def handle : Call → Handle
  | of types number => .of types number
  | intern a => a

/-- The types that are asked for. -/
def types : Call → List ClassId
  | of types _ => types
  | intern a => a.signature.types

/-- The signature that is asked for. -/
def signature (c : Call) : Signature := ⟨c.types⟩

theorem signature_handle (c : Call) : c.handle.signature = c.signature := by
  cases c with
  | of types number => exact congrArg Signature.mk (Handle.types_of types number)
  | intern a => rfl

end Call

/-- What a new interner answers to calls one after the other, and what it has stored then. -/
def answers (calls : List Call) : List Handle × Interner :=
  (calls.mapM fun c => intern c.handle) empty

theorem answers_append_singleton (calls : List Call) (c : Call) :
    answers (calls ++ [c]) = ((answers calls).1 ++ [(intern c.handle (answers calls).2).1],
      (intern c.handle (answers calls).2).2) := by
  unfold answers
  rw [List.mapM_append]
  rfl

/-! ### One call -/

variable {a b : Handle} {i : Interner} {s : Signature}

/-- A common signature is left alone, one that is stored is answered, and any other is stored. -/
theorem intern_cases (a : Handle) (i : Interner) :
    (a.signature.isCommon = true ∧ intern a i = (a, i)) ∨
    (a.signature.isCommon = false ∧
      ∃ b, i.table.find? a.signature = some b ∧ intern a i = (b, i)) ∨
    (a.signature.isCommon = false ∧ i.table.find? a.signature = none ∧
      intern a i = (a, ⟨i.table.put a.signature a⟩)) := by
  unfold intern
  cases hcommon : a.signature.isCommon with
  | true => exact .inl ⟨rfl, rfl⟩
  | false =>
    cases hfound : i.table.find? a.signature with
    | some b => exact .inr (.inl ⟨rfl, b, rfl, rfl⟩)
    | none => exact .inr (.inr ⟨rfl, rfl, rfl⟩)

/-- What is stored stays. -/
theorem find?_intern (h : i.table.find? s = some b) (a : Handle) :
    (intern a i).2.table.find? s = some b := by
  rcases intern_cases a i with ⟨-, heq⟩ | ⟨-, c, -, heq⟩ | ⟨-, hnone, heq⟩
  · rw [heq]
    exact h
  · rw [heq]
    exact h
  · have hne : a.signature ≠ s := by
      rintro rfl
      rw [hnone] at h
      cases h
    rw [heq]
    show (i.table.put a.signature a).find? s = some b
    rw [Assoc.find?_put, if_neg hne]
    exact h

/-- What an interner has stored after some calls. -/
structure Records (calls : List Call) (i : Interner) : Prop where
  /-- The signatures asked for that are not common. -/
  keys : ∀ s, s ∈ i.table.keys ↔ (∃ c ∈ calls, c.signature = s) ∧ s.isCommon = false
  /-- Each handle is stored under its signature. -/
  values : ∀ s a, i.table.find? s = some a → a.signature = s

namespace Records

variable {calls : List Call} {c : Call}

theorem empty : Records [] empty where
  keys s := by
    constructor
    · intro h
      cases h
    · rintro ⟨⟨c, hc, -⟩, -⟩
      cases hc
  values s a h := by
    cases h

theorem find?_of_isCommon (h : i.Records calls) (hs : s.isCommon = true) :
    i.table.find? s = none := by
  apply Assoc.find?_eq_none_of_notMem
  intro hmem
  have hnot := ((h.keys s).1 hmem).2
  rw [hs] at hnot
  cases hnot

/-- A call for what is common or stored already leaves everything as it was. -/
theorem append (h : i.Records calls)
    (hc : c.signature.isCommon = true ∨ c.signature ∈ i.table.keys) :
    i.Records (calls ++ [c]) := by
  refine ⟨fun s => ?_, h.values⟩
  rw [h.keys]
  constructor
  · rintro ⟨⟨d, hd, hds⟩, hnot⟩
    exact ⟨⟨d, List.mem_append_left _ hd, hds⟩, hnot⟩
  · rintro ⟨⟨d, hd, rfl⟩, hnot⟩
    rcases List.mem_append.1 hd with hd | hd
    · exact ⟨⟨d, hd, rfl⟩, hnot⟩
    · obtain rfl := List.mem_singleton.1 hd
      rcases hc with hcommon | hmem
      · rw [hcommon] at hnot
        cases hnot
      · exact (h.keys _).1 hmem

/-- A call for anything else stores the handle. -/
theorem put (h : i.Records calls) (hnot : c.signature.isCommon = false) :
    Records (calls ++ [c]) ⟨i.table.put c.signature c.handle⟩ where
  keys s := by
    rw [Assoc.mem_keys_put, h.keys]
    constructor
    · rintro (rfl | ⟨⟨d, hd, hds⟩, hs⟩)
      · exact ⟨⟨c, List.mem_append_right _ (List.mem_singleton_self c), rfl⟩, hnot⟩
      · exact ⟨⟨d, List.mem_append_left _ hd, hds⟩, hs⟩
    · rintro ⟨⟨d, hd, hds⟩, hs⟩
      rcases List.mem_append.1 hd with hd | hd
      · exact .inr ⟨⟨d, hd, hds⟩, hs⟩
      · obtain rfl := List.mem_singleton.1 hd
        exact .inl hds.symm
  values s a ha := by
    change (i.table.put c.signature c.handle).find? s = some a at ha
    rw [Assoc.find?_put] at ha
    split_ifs at ha with hs
    · obtain rfl := Option.some.inj ha
      rw [c.signature_handle, hs]
    · exact h.values s a ha

/-- One more call. -/
theorem intern (h : i.Records calls) (c : Call) :
    (Interner.intern c.handle i).2.Records (calls ++ [c]) := by
  have hcases := intern_cases c.handle i
  rw [c.signature_handle] at hcases
  rcases hcases with ⟨hcommon, heq⟩ | ⟨-, b, hfound, heq⟩ | ⟨hnot, -, heq⟩
  · rw [heq]
    exact h.append (.inl hcommon)
  · rw [heq]
    exact h.append (.inr (Assoc.mem_keys_of_find? hfound))
  · rw [heq]
    exact h.put hnot

/-- Whoever compares what is stored with a handle finds what is stored under its signature. -/
theorem find?_equal (h : i.Records calls) (hash : List ClassId → UInt64) (a : Handle) :
    i.table.values.find? (fun b => b.equal hash a) = i.table.find? a.signature := by
  -- a handle is equal to `a` exactly if it is stored under the signature of `a`
  refine Assoc.find?_values fun e he => ?_
  have hvalue : e.2.signature = e.1 := h.values _ _ (i.table.mem_toList_iff.1 he)
  rw [Handle.equal_iff, ← hvalue]
  constructor
  · intro htypes
    exact congrArg Signature.mk htypes
  · intro hsignature
    exact congrArg Signature.types hsignature

/-- As many signatures are stored as different lists of types were asked for that are not common. -/
theorem size_eq (h : i.Records calls) : i.size
    = ((calls.map Call.types).filter fun types =>
        !(Signature.mk types).isCommon).toFinset.card := by
  -- a signature is nothing but its types, so the keys may be counted by these
  have hkeys : i.table.keys.toFinset
      = ((calls.map Call.types).filter fun types =>
          !(Signature.mk types).isCommon).toFinset.image Signature.mk := by
    ext s
    rw [List.mem_toFinset, h.keys, Finset.mem_image]
    simp only [List.mem_toFinset, List.mem_filter, List.mem_map, Bool.not_eq_true']
    constructor
    · rintro ⟨⟨c, hc, rfl⟩, hnot⟩
      exact ⟨c.types, ⟨⟨c, hc, rfl⟩, hnot⟩, rfl⟩
    · rintro ⟨types, ⟨⟨c, hc, rfl⟩, hnot⟩, rfl⟩
      exact ⟨⟨c, hc, rfl⟩, hnot⟩
  have hinjective : Function.Injective Signature.mk := by
    intro types types' htypes
    exact congrArg Signature.types htypes
  rw [size, Assoc.size_eq_length_keys, ← List.toFinset_card_of_nodup (Assoc.keys_nodup _), hkeys,
    Finset.card_image_of_injective _ hinjective]

end Records

/-! ### What an answer stands for -/

/-- A handle stands for the signature of a call: it is the one that was put to the interner if the
signature is common, and otherwise the one that is stored. -/
def StandsFor (i : Interner) (c : Call) (a : Handle) : Prop :=
  if c.signature.isCommon then a = c.handle else i.table.find? c.signature = some a

theorem standsFor_intern (c : Call) (i : Interner) :
    (intern c.handle i).2.StandsFor c (intern c.handle i).1 := by
  have hcases := intern_cases c.handle i
  rw [c.signature_handle] at hcases
  unfold StandsFor
  rcases hcases with ⟨hcommon, heq⟩ | ⟨hnot, b, hfound, heq⟩ | ⟨hnot, -, heq⟩
  · rw [if_pos hcommon, heq]
  · rw [if_neg (by simp [hnot]), heq]
    exact hfound
  · rw [if_neg (by simp [hnot]), heq]
    show (i.table.put c.signature c.handle).find? c.signature = _
    rw [Assoc.find?_put, if_pos rfl]

namespace StandsFor

variable {calls : List Call} {c d : Call}

theorem intern (h : i.StandsFor c a) (b : Handle) : (Interner.intern b i).2.StandsFor c a := by
  unfold StandsFor at h ⊢
  split_ifs at h ⊢
  · exact h
  · exact find?_intern h b

theorem signature_eq (h : i.StandsFor c a) (hi : i.Records calls) : a.signature = c.signature := by
  unfold StandsFor at h
  split_ifs at h
  · rw [h, c.signature_handle]
  · exact hi.values _ _ h

/-- What stands for two calls is one and the same if they ask for the same types. -/
theorem same_iff (ha : i.StandsFor c a) (hb : i.StandsFor d b) (hi : i.Records calls) :
    a.same b = true ↔ c.types = d.types := by
  have hca := ha.signature_eq hi
  have hdb := hb.signature_eq hi
  rw [Handle.same_eq_true_iff]
  constructor
  · rintro rfl
    exact congrArg Signature.types (hca.symm.trans hdb)
  · intro htypes
    have hsignature : c.signature = d.signature := congrArg Signature.mk htypes
    unfold StandsFor at ha hb
    rw [hsignature] at ha
    split_ifs at ha hb with hcommon
    · -- there is only one of a common signature
      have hab : a.signature = b.signature := by rw [hca, hdb, hsignature]
      rw [← hsignature, ← hca] at hcommon
      exact Handle.eq_of_isCommon hab hcommon
    · -- of any other, both are the one that is stored
      exact Option.some.inj (ha.symm.trans hb)

end StandsFor

/-! ### Runs of calls -/

theorem records_answers (calls : List Call) : (answers calls).2.Records calls := by
  induction calls using List.reverseRecOn with
  | nil => exact .empty
  | append_singleton calls c ih =>
    rw [answers_append_singleton]
    exact ih.intern c

/-- In the end every answer stands for its call. -/
theorem standsFor_answers (calls : List Call) :
    List.Forall₂ (answers calls).2.StandsFor calls (answers calls).1 := by
  induction calls using List.reverseRecOn with
  | nil => exact .nil
  | append_singleton calls c ih =>
    rw [answers_append_singleton]
    have hold : List.Forall₂ (intern c.handle (answers calls).2).2.StandsFor calls
        (answers calls).1 := ih.imp fun _ _ h => h.intern c.handle
    have hnew := standsFor_intern c (answers calls).2
    exact List.rel_append hold (.cons hnew .nil)

/-- **Interned signatures are shared.**  Whatever an interner is asked for, two of its answers are
one and the same handle exactly if they are for the same types, and these are the types of both.
What it answers for a common signature is the one that is there already, which is what anybody gets
who makes the signature, and it never stores one; it has stored as many signatures as it was asked
for different lists of types that are not common.  Handles are equal, and compare as equal, exactly
if their types are the same, however they were made and whatever the hash; so to search what is
stored for a handle equal to one is to look up its signature. -/
theorem answers_same_iff (calls : List Call) :
    (answers calls).1.length = calls.length ∧
    (∀ p ∈ calls.zip (answers calls).1, ∀ q ∈ calls.zip (answers calls).1,
      (p.2.same q.2 = true ↔ p.1.types = q.1.types) ∧ p.2.signature.types = p.1.types) ∧
    (∀ p ∈ calls.zip (answers calls).1, p.1.signature.isCommon = true →
      ∀ number, p.2.same (.of p.1.types number) = true) ∧
    (∀ types m n, Handle.of types m = .of types n ↔
      m = n ∨ (Signature.mk types).isCommon = true) ∧
    (∀ s : Signature, s.isCommon = true → (answers calls).2.table.find? s = none) ∧
    (answers calls).2.size
      = ((calls.map Call.types).filter fun types => !(Signature.mk types).isCommon).toFinset.card ∧
    ∀ (hash : List ClassId → UInt64) (a b : Handle),
      (a.equal hash b = true ↔ a.signature.types = b.signature.types) ∧
      (a.signature.order b.signature = .eq ↔ a.signature.types = b.signature.types) ∧
      (answers calls).2.table.values.find? (fun b => b.equal hash a)
        = (answers calls).2.table.find? a.signature := by
  have hrecords := records_answers calls
  obtain ⟨hlength, hstands⟩ := List.forall₂_iff_zip.1 (standsFor_answers calls)
  refine ⟨hlength.symm, ?_, ?_, Handle.of_eq_of_iff, fun s hs => hrecords.find?_of_isCommon hs,
    hrecords.size_eq, ?_⟩
  · rintro ⟨c, a⟩ hp ⟨d, b⟩ hq
    have ha := hstands hp
    refine ⟨ha.same_iff (hstands hq) hrecords, ?_⟩
    exact congrArg Signature.types (ha.signature_eq hrecords)
  · rintro ⟨c, a⟩ hp hcommon number
    have ha := (hstands hp).signature_eq hrecords
    have hof : (Handle.of c.types number).signature = c.signature :=
      congrArg Signature.mk (Handle.types_of c.types number)
    rw [Handle.same_eq_true_iff]
    exact Handle.eq_of_isCommon (ha.trans hof.symm) (ha ▸ hcommon)
  · intro hash a b
    exact ⟨a.equal_iff hash b, a.signature.order_eq_iff b.signature,
      hrecords.find?_equal hash a⟩

end Interner

end ScriptSurface
