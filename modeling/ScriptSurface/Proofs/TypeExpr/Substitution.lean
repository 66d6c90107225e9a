import Mathlib.Data.List.Basic
import ScriptSurface.TypeExpr.Substitution

/-!
# What substitution makes of a type

`TypeExpr.substitute?` works on instances and answers only what changed.  `TypeExpr.replace` is the
substitution it stands for: every bound variable down to the limit is replaced, whatever instances
there are.  The two agree up to stamps (`bare_substituteAt`), and the same instance is answered
when no variable is bound (`substitute?_eq_none`).

The variables of a type are listed with their depths by `TypeExpr.occurrences`.  Substitution puts
the occurrences of a target in the place of each bound one (`occurrences_replace`), and two of them
come to one when they do so for every variable (`bare_replace_replace`).
-/

namespace ScriptSurface.TypeExpr

variable {σ τ : Bindings} {limit depth : ℕ} {t u : TypeExpr} {ts : List TypeExpr}

/-! ### Variables and their depths -/

mutual

/-- The variables of a type at the given depth, each with its own depth, left to right. -/
def occurrences (depth : ℕ) : TypeExpr → List (TypeVar × ℕ)
  | unknown => []
  | plain _ _ => []
  | var v _ => [(v, depth)]
  | array t _ => occurrences (depth + 1) t
  | applied _ ts _ => allOccurrences (depth + 1) ts

/-- The variables of the types at the given depth, each with its own depth. -/
def allOccurrences (depth : ℕ) : List TypeExpr → List (TypeVar × ℕ)
  | [] => []
  | t :: ts => occurrences depth t ++ allOccurrences depth ts

end

/-- The variables a type mentions. -/
def vars (t : TypeExpr) : List TypeVar := (t.occurrences 0).map Prod.fst

/-- No variable of the type lies below the limit. -/
def VarsWithin (limit : ℕ) (t : TypeExpr) : Prop := ∀ o ∈ t.occurrences 0, o.2 ≤ limit

theorem allOccurrences_eq (depth : ℕ) (ts : List TypeExpr) :
    allOccurrences depth ts = ts.flatMap (occurrences depth) := by
  induction ts with
  | nil => rfl
  | cons t ts ih => rw [allOccurrences, ih, List.flatMap_cons]

theorem mem_occurrences_applied {raw : ClassId} {s : Stamp} {o : TypeVar × ℕ} (ht : t ∈ ts)
    (ho : o ∈ occurrences (depth + 1) t) : o ∈ occurrences depth (applied raw ts s) := by
  rw [occurrences, allOccurrences_eq]
  exact List.mem_flatMap.2 ⟨t, ht, ho⟩

/-- The depth at which a type stands only shifts the depths of its variables. -/
theorem occurrences_add (k : ℕ) (t : TypeExpr) :
    ∀ depth, occurrences (depth + k) t = (occurrences depth t).map fun o => (o.1, o.2 + k) := by
  induction t using induct with
  | unknown => intro _; rfl
  | plain c s => intro _; rfl
  | var v s => intro _; rfl
  | array t s ih =>
    intro depth
    rw [occurrences, occurrences, ← ih, Nat.add_right_comm]
  | applied raw ts s ih =>
    intro depth
    rw [occurrences, occurrences, allOccurrences_eq, allOccurrences_eq, List.map_flatMap]
    refine List.flatMap_congr fun t ht => ?_
    rw [← ih t ht, Nat.add_right_comm]

theorem mem_vars_of_mem_occurrences {o : TypeVar × ℕ} (h : o ∈ occurrences depth t) :
    o.1 ∈ t.vars := by
  rw [← Nat.zero_add depth, occurrences_add, List.mem_map] at h
  obtain ⟨p, hp, rfl⟩ := h
  exact List.mem_map.2 ⟨p, hp, rfl⟩

/-! ### Stamps -/

theorem bareAll_eq (ts : List TypeExpr) : bareAll ts = ts.map bare := by
  induction ts with
  | nil => rfl
  | cons t ts ih => rw [bareAll, ih, List.map_cons]

theorem occurrences_bare (t : TypeExpr) :
    ∀ depth, occurrences depth t.bare = occurrences depth t := by
  induction t using induct with
  | unknown => intro _; rfl
  | plain c s => intro _; rfl
  | var v s => intro _; rfl
  | array t s ih => intro depth; exact ih (depth + 1)
  | applied raw ts s ih =>
    intro depth
    rw [bare, occurrences, occurrences, allOccurrences_eq, allOccurrences_eq, bareAll_eq,
      List.flatMap_map]
    exact List.flatMap_congr fun t ht => ih t ht (depth + 1)

theorem occurrences_eq_of_bare_eq (h : t.bare = u.bare) (depth : ℕ) :
    occurrences depth t = occurrences depth u := by
  rw [← occurrences_bare t, h, occurrences_bare]

theorem bare_eq_of_same_var {v : TypeVar} {s : Stamp} (h : t.same (var v s) = true) :
    t.bare = (var v s).bare := by
  cases t <;> simp [same] at h
  rw [h.1]
  rfl

/-! ### Replacing variables -/

mutual

/-- The type with the bound variables down to the limit replaced by their targets, where the type
itself stands at the given depth. -/
def replace (σ : Bindings) (limit depth : ℕ) : TypeExpr → TypeExpr
  | unknown => unknown
  | plain c s => plain c s
  | var v s => if depth ≤ limit then (σ v).getD (var v s) else var v s
  | array t s => array (replace σ limit (depth + 1) t) s
  | applied raw ts s => applied raw (replaceAll σ limit (depth + 1) ts) s

/-- The types with the bound variables down to the limit replaced. -/
def replaceAll (σ : Bindings) (limit depth : ℕ) : List TypeExpr → List TypeExpr
  | [] => []
  | t :: ts => replace σ limit depth t :: replaceAll σ limit depth ts

end

theorem replaceAll_eq (σ : Bindings) (limit depth : ℕ) (ts : List TypeExpr) :
    replaceAll σ limit depth ts = ts.map (replace σ limit depth) := by
  induction ts with
  | nil => rfl
  | cons t ts ih => rw [replaceAll, ih, List.map_cons]

/-- The variables after replacing: in the place of each bound one down to the limit, those of its
target. -/
theorem occurrences_replace (σ : Bindings) (limit : ℕ) (t : TypeExpr) :
    ∀ depth, occurrences depth (replace σ limit depth t)
      = (occurrences depth t).flatMap fun o =>
          if o.2 ≤ limit then ((σ o.1).map (occurrences o.2)).getD [o] else [o] := by
  induction t using induct with
  | unknown => intro _; rfl
  | plain c s => intro _; rfl
  | var v s =>
    intro depth
    rw [replace, occurrences, List.flatMap_singleton]
    split_ifs
    · cases σ v <;> rfl
    · rfl
  | array t s ih => intro depth; exact ih (depth + 1)
  | applied raw ts s ih =>
    intro depth
    rw [replace, occurrences, occurrences, allOccurrences_eq, allOccurrences_eq, replaceAll_eq,
      List.flatMap_map, List.flatMap_assoc]
    exact List.flatMap_congr fun t ht => ih t ht (depth + 1)

/-- Replacing does not see stamps. -/
theorem bare_replace_bare (σ : Bindings) (limit : ℕ) (t : TypeExpr) :
    ∀ depth, (replace σ limit depth t.bare).bare = (replace σ limit depth t).bare := by
  induction t using induct with
  | unknown => intro _; rfl
  | plain c s => intro _; rfl
  | var v s =>
    intro depth
    rw [bare, replace, replace]
    split_ifs
    · cases σ v <;> rfl
    · rfl
  | array t s ih => intro depth; simp only [bare, replace, ih]
  | applied raw ts s ih =>
    intro depth
    simp only [bare, replace, bareAll_eq, replaceAll_eq, List.map_map]
    congr 1
    exact List.map_congr_left fun t ht => ih t ht (depth + 1)

/-- Where every variable lies within the limit, the depth of the type makes no difference. -/
theorem replace_eq_of_le {d : ℕ} (hd : d ≤ depth) (h : ∀ o ∈ occurrences depth t, o.2 ≤ limit) :
    replace σ limit d t = replace σ limit depth t := by
  induction t using induct generalizing d depth with
  | unknown => rfl
  | plain c s => rfl
  | var v s =>
    have hdepth : depth ≤ limit := h (v, depth) (List.mem_singleton_self _)
    rw [replace, replace, if_pos hdepth, if_pos (Nat.le_trans hd hdepth)]
  | array t s ih => rw [replace, replace, ih (Nat.add_le_add_right hd 1) h]
  | applied raw ts s ih =>
    rw [replace, replace, replaceAll_eq, replaceAll_eq]
    congr 1
    exact List.map_congr_left fun t ht => ih t ht (Nat.add_le_add_right hd 1) fun o ho =>
      h o (mem_occurrences_applied ht ho)

/-- Replacing twice is replacing once, if it is so for every variable in the type. -/
theorem bare_replace_replace {ρ : Bindings}
    (h : ∀ o ∈ occurrences depth t, ∀ s, (replace ρ limit o.2 (var o.1 s)).bare
      = (replace τ limit o.2 (replace σ limit o.2 (var o.1 s))).bare) :
    (replace ρ limit depth t).bare = (replace τ limit depth (replace σ limit depth t)).bare := by
  induction t using induct generalizing depth with
  | unknown => rfl
  | plain c s => rfl
  | var v s => exact h (v, depth) (List.mem_singleton_self _) s
  | array t s ih => simp only [replace, bare, ih h]
  | applied raw ts s ih =>
    simp only [replace, bare, bareAll_eq, replaceAll_eq, List.map_map]
    congr 1
    exact List.map_congr_left fun t ht => ih t ht fun o ho =>
      h o (mem_occurrences_applied ht ho)

/-! ### Substituting -/

/-- What substitution makes of a type that stands at the given depth. -/
def substituteAt (σ : Bindings) (limit depth : ℕ) (t : TypeExpr) : TypeExpr :=
  (substitute? σ limit depth t).getD t

theorem substituteAll?_getD (σ : Bindings) (limit depth : ℕ) (ts : List TypeExpr) :
    (substituteAll? σ limit depth ts).getD ts = ts.map (substituteAt σ limit depth) := by
  induction ts with
  | nil => rfl
  | cons t ts ih =>
    rw [List.map_cons, ← ih, substituteAt, substituteAll?]
    cases substitute? σ limit depth t <;> cases substituteAll? σ limit depth ts <;> rfl

theorem substituteAll?_eq_none_iff :
    substituteAll? σ limit depth ts = none ↔ ∀ t ∈ ts, substitute? σ limit depth t = none := by
  induction ts with
  | nil => simp [substituteAll?]
  | cons t ts ih =>
    rw [List.forall_mem_cons, ← ih, substituteAll?]
    cases substitute? σ limit depth t <;> cases substituteAll? σ limit depth ts <;> simp

/-- Below the limit nothing is substituted. -/
theorem substitute?_eq_none_of_lt (h : limit < depth) : substitute? σ limit depth t = none := by
  cases t <;> simp [substitute?, h]

/-- Where no variable is bound, the very instance stands. -/
theorem substitute?_eq_none (h : ∀ o ∈ occurrences depth t, σ o.1 = none) :
    substitute? σ limit depth t = none := by
  induction t using induct generalizing depth with
  | unknown => rfl
  | plain c s => rfl
  | var v s =>
    have hv : σ v = none := h (v, depth) (List.mem_singleton_self _)
    rw [substitute?, hv]
    split_ifs <;> rfl
  | array t s ih =>
    rw [substitute?, ih h]
    split_ifs <;> rfl
  | applied raw ts s ih =>
    have hargs : substituteAll? σ limit (depth + 1) ts = none := by
      exact substituteAll?_eq_none_iff.2 fun t ht => ih t ht fun o ho =>
        h o (mem_occurrences_applied ht ho)
    rw [substitute?, hargs]
    split_ifs <;> rfl

theorem bare_substituteAt_var (v : TypeVar) (s : Stamp) :
    (substituteAt σ limit depth (var v s)).bare = (replace σ limit depth (var v s)).bare := by
  rw [substituteAt, substitute?, replace]
  by_cases hdepth : depth ≤ limit
  · rw [if_neg (Nat.not_lt.2 hdepth), if_pos hdepth]
    cases hv : σ v with
    | none => rfl
    | some target =>
      by_cases hsame : target.same (var v s) = true
      · simp only [hsame, if_true]
        exact (bare_eq_of_same_var hsame).symm
      · simp only [hsame]
        rfl
  · rw [if_pos (Nat.lt_of_not_le hdepth), if_neg hdepth]
    rfl

/-- Up to stamps, substitution replaces the bound variables down to the limit. -/
theorem bare_substituteAt (σ : Bindings) (limit : ℕ) (t : TypeExpr) :
    ∀ depth, (substituteAt σ limit depth t).bare = (replace σ limit depth t).bare := by
  induction t using induct with
  | unknown => intro _; rfl
  | plain c s => intro _; rfl
  | var v s => intro depth; exact bare_substituteAt_var v s
  | array t s ih =>
    intro depth
    have hpart : (substituteAt σ limit depth (array t s)).bare
        = array (substituteAt σ limit (depth + 1) t).bare .anonymous := by
      rw [substituteAt, substituteAt, substitute?]
      split_ifs with hdepth
      · rw [substitute?_eq_none_of_lt (Nat.lt_succ_of_lt hdepth)]
        rfl
      · cases substitute? σ limit (depth + 1) t <;> rfl
    rw [hpart, ih]
    rfl
  | applied raw ts s ih =>
    intro depth
    have hparts : (substituteAt σ limit depth (applied raw ts s)).bare
        = applied raw (bareAll ((substituteAll? σ limit (depth + 1) ts).getD ts)) .anonymous := by
      rw [substituteAt, substitute?]
      split_ifs with hdepth
      · have hargs : substituteAll? σ limit (depth + 1) ts = none :=
          substituteAll?_eq_none_iff.2 fun t _ =>
            substitute?_eq_none_of_lt (Nat.lt_succ_of_lt hdepth)
        rw [hargs]
        rfl
      · cases substituteAll? σ limit (depth + 1) ts <;> rfl
    rw [hparts, substituteAll?_getD, replace, replaceAll_eq, bare, bareAll_eq, bareAll_eq,
      List.map_map, List.map_map]
    congr 1
    exact List.map_congr_left fun t ht => ih t ht (depth + 1)

theorem occurrences_substituteAt (σ : Bindings) (limit depth : ℕ) (t : TypeExpr) :
    occurrences depth (substituteAt σ limit depth t)
      = (occurrences depth t).flatMap fun o =>
          if o.2 ≤ limit then ((σ o.1).map (occurrences o.2)).getD [o] else [o] := by
  rw [occurrences_eq_of_bare_eq (bare_substituteAt σ limit t depth), occurrences_replace]

end ScriptSurface.TypeExpr
