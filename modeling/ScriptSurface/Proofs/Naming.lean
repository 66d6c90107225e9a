import Mathlib.Data.List.Basic
import ScriptSurface.Naming
import ScriptSurface.Proofs.Text.Blank

/-!
# What members are called

`Naming.Resolves raw candidates visible` says which name a member is exposed under: the first of the
candidates that is not blank, without the blank characters at its ends, or the raw name if all of
them are blank.  The candidates are the hint, the renamer's answer and what is left of the raw name,
as far as there are any (`Naming.resolves_visible`).  A blank candidate makes no difference to what
comes after it, but only one prefix is ever taken off the raw name: `Naming.IsRemainder`.

So only a blank raw name is ever exposed as a blank name, and only a raw name has blank characters
at its ends.
-/

namespace ScriptSurface.Naming

variable {raw v : String} {candidates : List String}

/-! ### The raw name -/

/-- What is left of a raw name after the first of some prefixes that it starts with. -/
inductive IsRemainder (raw : String) : List String → Option String → Prop where
  /-- The raw name starts with none of them. -/
  | none : IsRemainder raw [] none
  /-- The raw name does not start with the first one. -/
  | skip {p : String} {prefixes : List String} {rest : Option String} :
    (∀ s, raw ≠ p ++ s) → IsRemainder raw prefixes rest → IsRemainder raw (p :: prefixes) rest
  /-- The raw name starts with the first one. -/
  | strip {p : String} {prefixes : List String} {s : String} :
    raw = p ++ s → IsRemainder raw (p :: prefixes) (some s)

theorem isPrefixOf?_toList_eq_some_iff {p : String} {cs : List Char} :
    p.toList.isPrefixOf? raw.toList = some cs ↔ raw = p ++ String.ofList cs := by
  rw [List.isPrefixOf?_eq_some_iff_append_eq, ← String.toList_inj, String.toList_append,
    String.toList_ofList, eq_comm]

theorem isRemainder_remainder? (raw : String) (prefixes : List String) :
    IsRemainder raw prefixes (remainder? prefixes raw) := by
  induction prefixes with
  | nil => exact .none
  | cons p prefixes ih =>
    rw [remainder?, List.findSome?_cons]
    cases hp : p.toList.isPrefixOf? raw.toList with
    | none =>
      refine .skip (fun s hs => ?_) ih
      rw [← String.ofList_toList (s := s), ← isPrefixOf?_toList_eq_some_iff, hp] at hs
      cases hs
    | some cs => exact .strip (isPrefixOf?_toList_eq_some_iff.1 hp)

/-! ### The visible name -/

/-- A name is the first of some candidates that is not blank, trimmed, or the raw name if there is
none. -/
inductive Resolves (raw : String) : List String → String → Prop where
  /-- No candidate is left. -/
  | raw : Resolves raw [] raw
  /-- The first candidate is blank. -/
  | skip {s : String} {candidates : List String} {v : String} :
    Text.Blank s → Resolves raw candidates v → Resolves raw (s :: candidates) v
  /-- The first candidate is not blank. -/
  | take {s : String} {candidates : List String} {v : String} :
    ¬Text.Blank s → Text.IsTrim s v → Resolves raw (s :: candidates) v

namespace Resolves

/-- The description leaves no choice. -/
theorem unique {v' : String} (h : Resolves raw candidates v)
    (h' : Resolves raw candidates v') : v = v' := by
  induction h with
  | raw => cases h'; rfl
  | skip hblank _ ih =>
    cases h' with
    | skip _ h' => exact ih h'
    | take hnot _ => exact absurd hblank hnot
  | take hnot htrim =>
    cases h' with
    | skip hblank _ => exact absurd hblank hnot
    | take _ htrim' => rw [Text.isTrim_iff.1 htrim, Text.isTrim_iff.1 htrim']

/-- Only a blank raw name is exposed as a blank name. -/
theorem not_blank (h : Resolves raw candidates v) (hraw : ¬Text.Blank raw) :
    ¬Text.Blank v := by
  induction h with
  | raw => exact hraw
  | skip _ _ ih => exact ih
  | take hnot htrim => rwa [← htrim.blank_iff]

/-- Only a raw name has blank characters at its ends. -/
theorem trimmed (h : Resolves raw candidates v) (hne : v ≠ raw) :
    Text.Trimmed v := by
  induction h with
  | raw => exact absurd rfl hne
  | skip _ _ ih => exact ih hne
  | take _ htrim => exact htrim.trimmed

end Resolves

theorem resolves_findSome? (raw : String) (candidates : List String) :
    Resolves raw candidates ((candidates.findSome? Text.nonBlank?).getD raw) := by
  induction candidates with
  | nil => exact .raw
  | cons s candidates ih =>
    rw [List.findSome?_cons]
    by_cases hs : Text.Blank s
    · rw [Text.nonBlank?_of_blank hs]
      exact .skip hs ih
    · rw [Text.nonBlank?_of_not_blank hs]
      exact .take hs (Text.isTrim_trim s)

/-- The visible name is resolved from the hint, the renamer's answer and the remainder. -/
theorem resolves_visible (hint answer : Option String) (prefixes : List String) (raw : String) :
    Resolves raw (hint.toList ++ answer.toList ++ (remainder? prefixes raw).toList)
      (visible hint answer prefixes raw) := by
  have hcandidates : visible hint answer prefixes raw
      = ((hint.toList ++ answer.toList ++ (remainder? prefixes raw).toList).findSome?
          Text.nonBlank?).getD raw := by
    have hbind : ∀ o : Option String, o.toList.findSome? Text.nonBlank?
        = o.bind Text.nonBlank? := by
      intro o
      cases o <;> simp
    rw [List.findSome?_append, List.findSome?_append, hbind, hbind, hbind, visible]
    cases hint.bind Text.nonBlank? <;> cases answer.bind Text.nonBlank? <;> rfl
  rw [hcandidates]
  exact resolves_findSome? raw _

end ScriptSurface.Naming
