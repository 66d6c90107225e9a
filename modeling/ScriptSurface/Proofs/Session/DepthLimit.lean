import ScriptSurface.Proofs.Mapping.Bindings
import ScriptSurface.Proofs.Session.Computations.Repeats
import ScriptSurface.Proofs.TypeExpr.Positions

/-!
# Substitution down to a limit

A session that substitutes in a type notes each part that it stops at (`Session.substituting`).
What becomes of the type is told by `TypeExpr.IsSubstituted`, up to stamps, and the parts it stops
at are those that stand one level below the limit.  How the bindings are stored makes no difference.
-/

namespace ScriptSurface.Session

open TypeExpr

/-! ### Substituting in a session -/

/-- Substitutes in a type and notes what lies too deep. -/
def substituting (σ : Bindings) (limit : ℕ) (t : TypeExpr) : SessionM TypeExpr := do
  noteTooDeep limit (t.beyond limit 0)
  return t.substitute σ limit

/-- Substitutes in each of some types and notes what lies too deep. -/
def substitutingAll (σ : Bindings) (limit : ℕ) (ts : List TypeExpr) : SessionM (List TypeExpr) := do
  noteTooDeep limit (beyondAll limit 0 ts)
  return substituteAll σ limit ts

/-- A type is put in the terms of a class by substituting what its mapping binds. -/
theorem inTermsOf?_getD_eq (env : Environment) (c : ClassId) (t : TypeExpr) :
    (do return (← inTermsOf? env c t).getD t)
      = (do substituting (← mapping env.types env.limit c).find? env.limit t) := rfl

theorem allInTermsOf?_getD_eq (env : Environment) (c : ClassId) (ts : List TypeExpr) :
    (do return (← allInTermsOf? env c ts).getD ts)
      = (do substitutingAll (← mapping env.types env.limit c).find? env.limit ts) := rfl

/-! ### Warnings -/

/-- A warning for each part one level below the limit. -/
theorem substituting_eq (σ : Bindings) (limit : ℕ) (t : TypeExpr) (s : Session) :
    substituting σ limit t s = (t.substitute σ limit, s.noting
      ((positions (limit + 1) t).filterMap fun p => (t.at? p).map (.tooDeep · limit))) := by
  refine Prod.ext rfl ?_
  show (noteTooDeep limit (t.beyond limit 0) s).2 = _
  rw [noteTooDeep_eq, beyond_eq_positions (Nat.zero_add _), List.map_filterMap]

theorem noting_noting (s : Session) (es es' : List Event) :
    (s.noting es).noting es' = s.noting (es ++ es') := by
  unfold noting
  rw [List.append_assoc]

/-- Substituting in a list is substituting in one type after the other. -/
theorem substitutingAll_eq (σ : Bindings) (limit : ℕ) (ts : List TypeExpr) :
    substitutingAll σ limit ts = ts.mapM (substituting σ limit) := by
  have hmap : ∀ ts, substituteAll σ limit ts = ts.map (·.substitute σ limit) :=
    substituteAll?_getD σ limit 0
  induction ts with
  | nil => rfl
  | cons t ts ih =>
    rw [List.mapM_cons, ← ih]
    funext s
    refine Prod.ext (by exact (hmap (t :: ts)).trans (congrArg _ (hmap ts).symm)) ?_
    show (noteTooDeep limit (beyondAll limit 0 (t :: ts)) s).2
      = (noteTooDeep limit (beyondAll limit 0 ts) (noteTooDeep limit (t.beyond limit 0) s).2).2
    rw [noteTooDeep_eq, noteTooDeep_eq, noteTooDeep_eq, noting_noting, beyondAll, List.map_append]

/-! ### What becomes of a type -/

/-- **Substitution goes down to its limit and no further.**  Whether a table of bindings is looked
up as it is or in the storage picked for it, what becomes of a type is the type in which each bound
variable down to the limit is its target, just as that is, all else down to the limit is the same
apart from its parts, and all below the limit is just as it was; up to stamps this is the only such
type.  Each part one level below the limit is noted once, and nothing else is.  In a list this goes
for one type after the other. -/
theorem substituting_down_to_limit (table : Assoc TypeVar TypeExpr) (limit : ℕ) :
    (Mapping.ofTable table).find? = table.find? ∧
    (∀ t s, ∃ deep : List (List ℕ),
      IsSubstituted table.find? limit 0 t (substituting table.find? limit t s).1 ∧
      (∀ u, IsSubstituted table.find? limit 0 t u →
        u.alike (substituting table.find? limit t s).1 = true) ∧
      deep.Nodup ∧ (∀ p, p ∈ deep ↔ p.length = limit + 1 ∧ (t.at? p).isSome = true) ∧
      (substituting table.find? limit t s).2
        = s.noting (deep.filterMap fun p => (t.at? p).map (.tooDeep · limit))) ∧
    ∀ ts, substitutingAll table.find? limit ts = ts.mapM (substituting table.find? limit) := by
  refine ⟨funext (Mapping.find?_ofTable table), fun t s => ⟨positions (limit + 1) t, ?_⟩,
    substitutingAll_eq _ _⟩
  have hsubstituted := isSubstituted_substituteAt table.find? limit 0 t
  rw [substituting_eq]
  exact ⟨hsubstituted, fun u hu => (alike_iff _ _).2 (hu.bare_eq hsubstituted),
    nodup_positions _ _, fun p => mem_positions_iff, rfl⟩

end ScriptSurface.Session
