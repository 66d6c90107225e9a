import ScriptSurface.Proofs.Paths
import ScriptSurface.Proofs.TypeExpr.Substitution

/-!
# What substitution does at each position

A part of a type stands at a position, the numbers of the parts to go to one after the other, and
the length of the position is the depth of the part (`TypeExpr.at?`): a position is a path through
the parts (`TypeExpr.at?_eq_endOf?`).  What stands at a position
after substitution is what becomes of the part that stood there, taken by itself
(`TypeExpr.at?_substituteAt`).

So both what a substituted type looks like and which instances are still in it can be told position
by position.  `TypeExpr.IsSubstituted` does the first: down to the limit bound variables are their
targets and all else is as it was, and below the limit nothing has changed.
`TypeExpr.substitute?_eq_none_iff` does the second: an instance stands exactly if every bound
variable in it down to the limit stands for its own instance.
-/

namespace ScriptSurface

theorem Stamp.eq_of_same {s t : Stamp} (h : s.same t = true) : s = t := by
  cases s <;> cases t <;> simp_all [Stamp.same]

namespace TypeExpr

variable {σ : Bindings} {limit depth : ℕ} {t u w : TypeExpr} {ts : List TypeExpr} {p : List ℕ}

/-! ### Parts and positions -/

/-- The parts of a type one level down. -/
def parts : TypeExpr → List TypeExpr
  | array t _ => [t]
  | applied _ ts _ => ts
  | _ => []

/-- The part of a type at a position. -/
def at? : List ℕ → TypeExpr → Option TypeExpr
  | [], t => some t
  | i :: p, t => t.parts[i]?.bind (at? p)

/-- The positions in a type at a depth, left to right. -/
def positions : ℕ → TypeExpr → List (List ℕ)
  | 0, _ => [[]]
  | d + 1, t => t.parts.zipIdx.flatMap fun (w, i) => (positions d w).map (i :: ·)

/-- What a type is apart from the parts below it and from its stamp. -/
def outline : TypeExpr → TypeExpr
  | array _ _ => array unknown .anonymous
  | applied raw ts _ => applied raw (ts.map fun _ => unknown) .anonymous
  | t => t.bare

/-- What a type stands for if it is a bound variable. -/
def target? (σ : Bindings) (t : TypeExpr) : Option TypeExpr := t.asVar?.bind σ

/-- Induction on types; what holds of all parts one level down holds of the type. -/
@[elab_as_elim]
theorem parts_induct {P : TypeExpr → Prop} (step : ∀ t, (∀ w ∈ t.parts, P w) → P t)
    (t : TypeExpr) : P t := by
  induction t using induct with
  | unknown => exact step _ (by simp [parts])
  | plain c s => exact step _ (by simp [parts])
  | var v s => exact step _ (by simp [parts])
  | array t s ih => exact step _ (by simpa [parts] using ih)
  | applied raw ts s ih => exact step _ ih

theorem at?_cons {i : ℕ} (h : t.parts[i]? = some w) (p : List ℕ) : t.at? (i :: p) = w.at? p := by
  rw [at?, h, Option.bind_some]

theorem exists_of_at?_cons {i : ℕ} (h : t.at? (i :: p) = some w) :
    ∃ x, t.parts[i]? = some x ∧ x.at? p = some w :=
  Option.bind_eq_some_iff.1 h

theorem length_parts_of_outline_eq (h : t.outline = u.outline) :
    t.parts.length = u.parts.length := by
  cases t <;> cases u <;> simp [outline, bare, parts] at h ⊢
  exact h.2

/-- Types that are the same apart from their parts, and whose parts are built alike, are built
alike. -/
theorem bare_eq_of_outline_eq (h : t.outline = u.outline)
    (hparts : t.parts.map bare = u.parts.map bare) : t.bare = u.bare := by
  cases t <;> cases u <;> simp [outline, bare, parts, bareAll_eq] at h hparts ⊢ <;> tauto

theorem eq_of_same_asVar? {v : TypeVar} (ht : t.asVar? = some v) (h : u.same t = true) : u = t := by
  cases t <;> simp [asVar?] at ht
  cases u <;> simp [same] at h
  rw [h.1, Stamp.eq_of_same h.2]

/-- A position is a path through the parts of a type. -/
theorem at?_eq_endOf? (p : List ℕ) (t : TypeExpr) : t.at? p = endOf? parts p t := by
  induction p generalizing t with
  | nil => rfl
  | cons i p ih =>
    rw [at?, endOf?]
    exact congrArg (t.parts[i]?.bind ·) (funext ih)

theorem positions_eq_pathsOf (d : ℕ) (t : TypeExpr) : positions d t = pathsOf parts d t := by
  induction d generalizing t with
  | zero => rfl
  | succ d ih =>
    simp only [positions, pathsOf, ih]

/-- Where there are positions in a type: at those of the depth that lead to a part. -/
theorem mem_positions_iff {d : ℕ} : p ∈ positions d t ↔ p.length = d ∧ (t.at? p).isSome = true := by
  rw [positions_eq_pathsOf, at?_eq_endOf?]
  exact mem_pathsOf_iff

theorem nodup_positions (d : ℕ) (t : TypeExpr) : (positions d t).Nodup := by
  rw [positions_eq_pathsOf]
  exact nodup_pathsOf d t

/-! ### What becomes of a part -/

theorem substituteAt_of_lt (h : limit < depth) (t : TypeExpr) :
    substituteAt σ limit depth t = t := by
  rw [substituteAt, substitute?_eq_none_of_lt h, Option.getD_none]

/-- The parts of a type become what they become one level further down. -/
theorem parts_substituteAt (ht : t.asVar? = none) :
    (substituteAt σ limit depth t).parts = t.parts.map (substituteAt σ limit (depth + 1)) := by
  by_cases hdepth : limit < depth
  · have hparts : t.parts.map (substituteAt σ limit (depth + 1)) = t.parts.map id :=
      List.map_congr_left fun w _ => substituteAt_of_lt (Nat.lt_succ_of_lt hdepth) w
    rw [substituteAt_of_lt hdepth, hparts, List.map_id]
  · cases t with
    | unknown => rfl
    | plain c s => rfl
    | var v s => cases ht
    | array t s =>
      simp only [substituteAt, substitute?, if_neg hdepth, parts, List.map_singleton]
      cases substitute? σ limit (depth + 1) t <;> rfl
    | applied raw ts s =>
      show _ = ts.map _
      rw [← substituteAll?_getD]
      simp only [substituteAt, substitute?, if_neg hdepth]
      cases substituteAll? σ limit (depth + 1) ts <;> rfl

/-- What stands at a position is what becomes of the part that stood there. -/
theorem at?_substituteAt (h : t.at? p = some w) :
    (substituteAt σ limit depth t).at? p = some (substituteAt σ limit (depth + p.length) w) := by
  induction p generalizing depth t with
  | nil => exact congrArg (fun x => some (substituteAt σ limit depth x)) (Option.some.inj h)
  | cons i p ih =>
    obtain ⟨x, hx, hw⟩ := exists_of_at?_cons h
    have ht : t.asVar? = none := by
      cases t with
      | var v s => cases hx
      | _ => rfl
    have hpart : (substituteAt σ limit depth t).parts[i]?
        = some (substituteAt σ limit (depth + 1) x) := by
      rw [parts_substituteAt ht, List.getElem?_map, hx, Option.map_some]
    rw [at?_cons hpart, ih hw, List.length_cons, Nat.add_right_comm, Nat.add_assoc]

/-- A bound variable down to the limit becomes its target. -/
theorem substituteAt_of_target? {target : TypeExpr} (hdepth : depth ≤ limit)
    (ht : t.target? σ = some target) : substituteAt σ limit depth t = target := by
  obtain ⟨v, hv, htarget⟩ := Option.bind_eq_some_iff.1 ht
  cases t with
  | var x s =>
    obtain rfl : x = v := Option.some.inj hv
    rw [substituteAt, substitute?, if_neg (Nat.not_lt.2 hdepth), htarget]
    by_cases hsame : target.same (var x s) = true
    · simp only [hsame, if_true, Option.getD_none]
      exact (eq_of_same_asVar? rfl hsame).symm
    · simp only [hsame, Bool.false_eq_true, if_false, Option.getD_some]
  | _ => cases hv

/-- All else is the same apart from its parts. -/
theorem outline_substituteAt (ht : t.target? σ = none) :
    (substituteAt σ limit depth t).outline = t.outline := by
  by_cases hdepth : limit < depth
  · rw [substituteAt_of_lt hdepth]
  · cases t with
    | unknown => rfl
    | plain c s => rfl
    | var v s =>
      have hv : σ v = none := ht
      simp [substituteAt, substitute?, hv]
    | array t s =>
      simp only [substituteAt, substitute?, if_neg hdepth]
      cases substitute? σ limit (depth + 1) t <;> rfl
    | applied raw ts s =>
      have hlength : ((substituteAll? σ limit (depth + 1) ts).getD ts).length = ts.length := by
        rw [substituteAll?_getD, List.length_map]
      simp only [substituteAt, substitute?, if_neg hdepth]
      cases hargs : substituteAll? σ limit (depth + 1) ts with
      | none => rfl
      | some us =>
        rw [hargs] at hlength
        simpa [outline] using hlength

/-! ### Position by position -/

/-- The second type is the first one with its bound variables replaced by their targets, where the
types stand at the given depth. -/
structure IsSubstituted (σ : Bindings) (limit depth : ℕ) (t u : TypeExpr) : Prop where
  /-- Down to the limit, a bound variable is its target, just as that is. -/
  bound : ∀ p w target, t.at? p = some w → depth + p.length ≤ limit → w.target? σ = some target →
    u.at? p = some target
  /-- Down to the limit, all else is the same apart from its parts. -/
  kept : ∀ p w, t.at? p = some w → depth + p.length ≤ limit → w.target? σ = none →
    (u.at? p).map outline = some w.outline
  /-- Below the limit, everything is just as it was. -/
  deep : ∀ p w, t.at? p = some w → limit < depth + p.length → u.at? p = some w

theorem isSubstituted_substituteAt (σ : Bindings) (limit depth : ℕ) (t : TypeExpr) :
    IsSubstituted σ limit depth t (substituteAt σ limit depth t) where
  bound p w target hw hdepth htarget := by
    rw [at?_substituteAt hw, substituteAt_of_target? hdepth htarget]
  kept p w hw _ hnone := by
    rw [at?_substituteAt hw, Option.map_some, outline_substituteAt hnone]
  deep p w hw hdepth := by
    rw [at?_substituteAt hw, substituteAt_of_lt hdepth]

namespace IsSubstituted

variable {u' : TypeExpr}

theorem part {i : ℕ} {x : TypeExpr} (h : IsSubstituted σ limit depth t u)
    (hw : t.parts[i]? = some w) (hx : u.parts[i]? = some x) :
    IsSubstituted σ limit (depth + 1) w x := by
  have hlength : ∀ p : List ℕ, depth + 1 + p.length = depth + (i :: p).length := by
    intro p
    rw [List.length_cons]
    omega
  refine ⟨fun p y target hy hdepth htarget => ?_, fun p y hy hdepth hnone => ?_,
    fun p y hy hdepth => ?_⟩ <;> rw [hlength] at hdepth <;> rw [← at?_cons hw] at hy <;>
    rw [← at?_cons hx]
  · exact h.bound _ y target hy hdepth htarget
  · exact h.kept _ y hy hdepth hnone
  · exact h.deep _ y hy hdepth

/-- What a type becomes is determined up to stamps. -/
theorem bare_eq (h : IsSubstituted σ limit depth t u) (h' : IsSubstituted σ limit depth t u') :
    u.bare = u'.bare := by
  induction t using parts_induct generalizing depth u u' with
  | step t ih =>
    by_cases hdepth : depth ≤ limit
    · cases htarget : t.target? σ with
      | some target =>
        have hu := h.bound [] t target rfl hdepth htarget
        have hu' := h'.bound [] t target rfl hdepth htarget
        rw [Option.some.inj hu, Option.some.inj hu']
      | none =>
        have hu : u.outline = t.outline := Option.some.inj (h.kept [] t rfl hdepth htarget)
        have hu' : u'.outline = t.outline := Option.some.inj (h'.kept [] t rfl hdepth htarget)
        have hlength := length_parts_of_outline_eq hu
        have hlength' := length_parts_of_outline_eq hu'
        refine bare_eq_of_outline_eq (hu.trans hu'.symm) (List.ext_getElem ?_ fun i hi hi' => ?_)
        · rw [List.length_map, List.length_map, hlength, hlength']
        · rw [List.length_map] at hi hi'
          have hw := List.getElem?_eq_getElem (hlength ▸ hi)
          rw [List.getElem_map, List.getElem_map]
          exact ih _ (List.getElem_mem _) (h.part hw (List.getElem?_eq_getElem hi))
            (h'.part hw (List.getElem?_eq_getElem hi'))
    · have hu := h.deep [] t rfl (Nat.lt_of_not_le hdepth)
      have hu' := h'.deep [] t rfl (Nat.lt_of_not_le hdepth)
      rw [Option.some.inj hu, Option.some.inj hu']

end IsSubstituted

/-! ### What lies too deep -/

theorem beyond_of_lt (h : limit < depth) (t : TypeExpr) : beyond limit depth t = [t] := by
  cases t <;> rw [beyond, if_pos h]

theorem beyondAll_eq (limit depth : ℕ) (ts : List TypeExpr) :
    beyondAll limit depth ts = ts.flatMap (beyond limit depth) := by
  induction ts with
  | nil => rfl
  | cons t ts ih => rw [beyondAll, ih, List.flatMap_cons]

theorem beyond_of_le (h : depth ≤ limit) (t : TypeExpr) :
    beyond limit depth t = t.parts.flatMap (beyond limit (depth + 1)) := by
  cases t <;> rw [beyond, if_neg (Nat.not_lt.2 h)]
  case array t s => exact (List.flatMap_singleton _ _).symm
  case applied raw ts s => exact beyondAll_eq limit (depth + 1) ts
  all_goals rfl

/-- What lies too deep is what stands one level below the limit, left to right. -/
theorem beyond_eq_positions {d : ℕ} (h : depth + d = limit + 1) (t : TypeExpr) :
    beyond limit depth t = (positions d t).filterMap fun p => t.at? p := by
  induction d generalizing depth t with
  | zero => exact beyond_of_lt (by omega) t
  | succ d ih =>
    have hlevel : depth + 1 + d = limit + 1 := by omega
    have hparts : ∀ x ∈ t.parts.zipIdx, beyond limit (depth + 1) x.1
        = ((positions d x.1).map (x.2 :: ·)).filterMap fun p => t.at? p := by
      intro x hx
      rw [ih hlevel, List.filterMap_map]
      refine List.filterMap_congr fun p _ => ?_
      exact (at?_cons (List.mem_zipIdx_iff_getElem?.1 hx) p).symm
    calc beyond limit depth t
        = t.parts.flatMap (beyond limit (depth + 1)) := beyond_of_le (by omega) t
      _ = (t.parts.zipIdx.map Prod.fst).flatMap (beyond limit (depth + 1)) := by
          rw [List.zipIdx_map_fst]
      _ = t.parts.zipIdx.flatMap fun x =>
            ((positions d x.1).map (x.2 :: ·)).filterMap fun p => t.at? p := by
          rw [List.flatMap_map]
          exact List.flatMap_congr hparts
      _ = (positions (d + 1) t).filterMap fun p => t.at? p := by
          rw [positions, List.filterMap_flatMap]

/-- The component of an array stands at depth 1: with limit 0 it is left as it is and lies too
deep. -/
example (σ : Bindings) (v : TypeVar) (s s' : Stamp) :
    (array (var v s) s').substitute σ 0 = array (var v s) s' ∧
      (array (var v s) s').beyond 0 0 = [var v s] :=
  ⟨rfl, rfl⟩

/-! ### The same instance -/

/-- What becomes of a type is another instance. -/
theorem same_eq_false_of_substitute? (h : substitute? σ limit depth t = some u) :
    u.same t = false := by
  cases t with
  | unknown => cases h
  | plain c s => cases h
  | var v s =>
    rw [substitute?] at h
    split at h
    · cases h
    · split at h
      · next target htarget =>
        split at h
        · cases h
        · next hsame => exact Option.some.inj h ▸ Bool.eq_false_iff.2 hsame
      · cases h
  | array t s =>
    rw [substitute?] at h
    split at h
    · cases h
    · split at h
      · rw [← Option.some.inj h]
        rfl
      · cases h
  | applied raw ts s =>
    rw [substitute?] at h
    split at h
    · cases h
    · split at h
      · rw [← Option.some.inj h]
        rfl
      · cases h

/-- The very instance stands if, down to the limit, it does not stand for another one and its parts
stand. -/
theorem substitute?_eq_none_iff_parts :
    substitute? σ limit depth t = none ↔
      (depth ≤ limit → ∀ target, t.target? σ = some target → target.same t = true) ∧
        ∀ w ∈ t.parts, substitute? σ limit (depth + 1) w = none := by
  by_cases hdepth : limit < depth
  · have hparts : ∀ w, substitute? σ limit (depth + 1) w = none := fun w =>
      substitute?_eq_none_of_lt (Nat.lt_succ_of_lt hdepth)
    simp [substitute?_eq_none_of_lt hdepth, hparts, Nat.not_le.2 hdepth]
  · have hle : depth ≤ limit := Nat.not_lt.1 hdepth
    cases t with
    | unknown => simp [substitute?, parts, target?, asVar?]
    | plain c s => simp [substitute?, parts, target?, asVar?]
    | var v s =>
      simp only [substitute?, if_neg hdepth, parts, target?, asVar?, Option.bind_some]
      cases hv : σ v <;> simp [hle]
    | array t s =>
      rw [parts, List.forall_mem_singleton]
      simp only [substitute?, if_neg hdepth, target?, asVar?]
      cases substitute? σ limit (depth + 1) t <;> simp
    | applied raw ts s =>
      rw [parts, ← substituteAll?_eq_none_iff]
      simp only [substitute?, if_neg hdepth, target?, asVar?]
      cases substituteAll? σ limit (depth + 1) ts <;> simp

/-- Every bound variable of the type down to the limit stands for its own instance. -/
def IsFixed (σ : Bindings) (limit depth : ℕ) (t : TypeExpr) : Prop :=
  ∀ p w target, t.at? p = some w → depth + p.length ≤ limit → w.target? σ = some target →
    target.same w = true

theorem isFixed_iff_parts :
    IsFixed σ limit depth t ↔
      (depth ≤ limit → ∀ target, t.target? σ = some target → target.same t = true) ∧
        ∀ w ∈ t.parts, IsFixed σ limit (depth + 1) w := by
  have hlength : ∀ (i : ℕ) (p : List ℕ), depth + (i :: p).length = depth + 1 + p.length := by
    intro i p
    rw [List.length_cons]
    omega
  constructor
  · refine fun h => ⟨fun hdepth target => h [] t target rfl hdepth, fun w hw p x target hx hd => ?_⟩
    obtain ⟨i, hi⟩ := List.mem_iff_getElem?.1 hw
    exact h (i :: p) x target (by rwa [at?_cons hi]) (by rwa [hlength])
  · rintro ⟨hroot, hparts⟩ p w target hw hdepth
    cases p with
    | nil => exact Option.some.inj hw ▸ hroot hdepth target
    | cons i p =>
      obtain ⟨x, hx, hw⟩ := exists_of_at?_cons hw
      rw [hlength] at hdepth
      exact hparts x (List.mem_of_getElem? hx) p w target hw hdepth

/-- The very instance stands exactly if every bound variable down to the limit stands for its own
instance. -/
theorem substitute?_eq_none_iff : substitute? σ limit depth t = none ↔ IsFixed σ limit depth t := by
  induction t using parts_induct generalizing depth with
  | step t ih =>
    rw [substitute?_eq_none_iff_parts, isFixed_iff_parts]
    exact and_congr_right' (forall₂_congr fun w hw => ih w hw)

/-- The very instance stands where no variable down to the limit is bound. -/
theorem isFixed_of_target?_eq_none
    (h : ∀ p w, t.at? p = some w → depth + p.length ≤ limit → w.target? σ = none) :
    IsFixed σ limit depth t := by
  intro p w target hw hdepth htarget
  rw [h p w hw hdepth] at htarget
  cases htarget

/-- What stands at a position is the instance that stood there, or another one. -/
theorem at?_substitute_same (h : t.at? p = some w) :
    (IsFixed σ limit p.length w → (t.substitute σ limit).at? p = some w) ∧
      (¬IsFixed σ limit p.length w →
        ∃ x, (t.substitute σ limit).at? p = some x ∧ x.same w = false) := by
  have hat : (t.substitute σ limit).at? p = some (substituteAt σ limit p.length w) := by
    rw [← Nat.zero_add p.length]
    exact at?_substituteAt h
  constructor <;> intro hfixed <;> rw [← substitute?_eq_none_iff] at hfixed
  · rw [hat, substituteAt, hfixed, Option.getD_none]
  · obtain ⟨x, hx⟩ := Option.ne_none_iff_exists'.1 hfixed
    rw [hat, substituteAt, hx]
    exact ⟨x, rfl, same_eq_false_of_substitute? hx⟩

/-- The answer is the type's own instance exactly if every bound variable down to the limit stands
for its own instance. -/
theorem same_substitute_iff (ht : t.same t = true) :
    (t.substitute σ limit).same t = true ↔ IsFixed σ limit 0 t := by
  rw [← substitute?_eq_none_iff, substitute]
  cases h : substitute? σ limit 0 t with
  | none => simp [ht]
  | some u => simp [same_eq_false_of_substitute? h]

/-- **The instances that substitution keeps.**  The very type is answered exactly if each of its
bound variables down to the limit stands for its own instance, and any other answer is another
instance.  The same goes for every part, so in a type that changed all parts without a changed
variable are the instances they were, and so is an applied type whose argument list stands.  A list
of types is answered as it is exactly if each of its types is, and in any other answer those of its
types that stand are in their places. -/
theorem substitute_keeps_instances (σ : Bindings) (limit : ℕ) :
    (∀ t : TypeExpr,
      (substitute? σ limit 0 t = none ↔ IsFixed σ limit 0 t) ∧
      (t.same t = true → ((t.substitute σ limit).same t = true ↔ IsFixed σ limit 0 t)) ∧
      ((∀ p w, t.at? p = some w → p.length ≤ limit → w.target? σ = none) →
        substitute? σ limit 0 t = none) ∧
      (∀ u, substitute? σ limit 0 t = some u → u.same t = false) ∧
      (∀ p w, t.at? p = some w →
        (IsFixed σ limit p.length w → (t.substitute σ limit).at? p = some w) ∧
        (¬IsFixed σ limit p.length w →
          ∃ x, (t.substitute σ limit).at? p = some x ∧ x.same w = false)) ∧
      (∀ p raw args s, t.at? p = some (applied raw args s) →
        substituteAll? σ limit (p.length + 1) args = none →
        (t.substitute σ limit).at? p = some (applied raw args s))) ∧
    ∀ ts : List TypeExpr,
      (substituteAll? σ limit 0 ts = none ↔ ∀ t ∈ ts, substitute? σ limit 0 t = none) ∧
      ∀ us, substituteAll? σ limit 0 ts = some us → us.length = ts.length ∧
        ∀ (i : ℕ) t, ts[i]? = some t →
          (substitute? σ limit 0 t = none → us[i]? = some t) ∧
          ∀ u, substitute? σ limit 0 t = some u → us[i]? = some u := by
  refine ⟨fun t => ⟨substitute?_eq_none_iff, same_substitute_iff, fun hunbound => ?_,
    fun u => same_eq_false_of_substitute?, fun p w => at?_substitute_same,
    fun p raw args s hat hargs => ?_⟩, fun ts => ⟨substituteAll?_eq_none_iff, fun us hus => ?_⟩⟩
  · refine substitute?_eq_none_iff.2 (isFixed_of_target?_eq_none fun p w hw hdepth => ?_)
    exact hunbound p w hw (by rwa [Nat.zero_add] at hdepth)
  · refine (at?_substitute_same hat).1 (substitute?_eq_none_iff.1 ?_)
    rw [substitute?, hargs]
    split_ifs <;> rfl
  · have hmap : us = ts.map (substituteAt σ limit 0) := by
      rw [← substituteAll?_getD, hus, Option.getD_some]
    refine ⟨by rw [hmap, List.length_map], fun i t ht => ?_⟩
    have hi : us[i]? = some (substituteAt σ limit 0 t) := by
      rw [hmap, List.getElem?_map, ht, Option.map_some]
    rw [hi, substituteAt]
    exact ⟨fun h => by rw [h, Option.getD_none], fun u h => by rw [h, Option.getD_some]⟩

end TypeExpr

end ScriptSurface
