import ScriptSurface.Proofs.Registry.Arrays

/-!
# Erasure in a draft

A draft erases its own variables through the bounds it holds.  At a variable of another class it
hands over to the registry, which knows nothing of the draft's variables: from there on they erase
to the universal base type.  `Draft.Erases` is the chain of bounds that is followed this way, and
`Draft.erase_eq` says that the draft's erasure is the class at its end with array classes asked for.

Once the draft is committed, erasure follows the bounds of both (`Draft.bounds`).  The two chains
are the same where no variable of another class leads back to one of the draft
(`Draft.erases_of_not_detours`).  Where one does, the draft stops there, while the other chain goes
on (`Draft.exists_detour`).  So the two ends are the same exactly if the draft's variable erases to
the universal base type anyway (`Draft.eq_iff_of_isArrays`).
-/

namespace ScriptSurface

open TypeVar (Below LeadsTo)

namespace Draft

/-! ### The bounds a draft follows -/

/-- The bound of a variable of the draft. -/
def boundOf (d : Draft) (v : TypeVar) : Option TypeExpr :=
  (d.typeParams[v.index.toNat]?).map TypeParam.bound

/-- The bounds of variables once a draft is committed: its own ones, and those of other classes. -/
def bounds (d : Draft) (f : TypeVar → Option TypeExpr) (v : TypeVar) : Option TypeExpr :=
  if v.owner = d.id then d.boundOf v else f v

/-- The class at the end of the bounds that a draft follows, and the number of brackets on the
way. -/
inductive Erases (d : Draft) (f : TypeVar → Option TypeExpr) : TypeVar → ClassId → ℕ → Prop where
  /-- From a variable of another class on, the bounds are those of the registry. -/
  | foreign {v : TypeVar} {c : ClassId} {k : ℕ} (hv : v.owner ≠ d.id) (h : v.Erases f c k) :
    Erases d f v c k
  /-- The draft does not declare the variable. -/
  | free {v : TypeVar} (hv : v.owner = d.id) (hb : d.boundOf v = none) :
    Erases d f v ClassId.object 0
  /-- The chain ends with a class. -/
  | cls {v : TypeVar} {b : TypeExpr} (hv : v.owner = d.id) (hb : d.boundOf v = some b)
    (hhead : b.headVar? = none) : Erases d f v b.headClass b.brackets
  /-- The chain goes on. -/
  | next {v w : TypeVar} {b : TypeExpr} {c : ClassId} {k : ℕ} (hv : v.owner = d.id)
    (hb : d.boundOf v = some b) (hhead : b.headVar? = some w) (hw : Erases d f w c k) :
    Erases d f v c (b.brackets + k)

/-- The class that is left of a type at the end of the bounds that a draft follows, and the number
of brackets around it. -/
def ErasesTo (d : Draft) (f : TypeVar → Option TypeExpr) (t : TypeExpr) (c : ClassId) (k : ℕ) :
    Prop :=
  match t.headVar? with
  | some v => ∃ j, d.Erases f v c j ∧ k = t.brackets + j
  | none => c = t.headClass ∧ k = t.brackets

/-- Whether a variable leads to one of the draft's by way of one of another class. -/
def Detours (d : Draft) (f : TypeVar → Option TypeExpr) (v w : TypeVar) : Prop :=
  ∃ u, Relation.ReflTransGen (Below f) v u ∧ u.owner ≠ d.id ∧ u.LeadsTo f w ∧ w.owner = d.id

/-! ### The erasure -/

section Erasure

variable {d : Draft} {f : TypeVar → Option TypeExpr} {S : Set TypeVar} {rank : TypeVar → ℕ}
  {r : Registry} {v : TypeVar} {t : TypeExpr} {c : ClassId} {k : ℕ}

theorem eraseVar_own {b : TypeExpr} (hv : v.owner = d.id) (hb : d.boundOf v = some b) (n : ℕ) :
    d.eraseVar (n + 1) v = b.eraseWith Registry.arrayOf (d.eraseVar n) := by
  obtain ⟨p, hp, rfl⟩ := Option.map_eq_some_iff.1 hb
  rw [eraseVar, if_pos hv, hp]

theorem eraseVar_eq (hrank : TypeVar.Ranked (d.bounds r.types.boundOf) S rank)
    (hown : ∀ v : TypeVar, v.owner = d.id → r.types.boundOf v = none) (hv : v ∈ S)
    (h : d.Erases r.types.boundOf v c k) {n : ℕ} (hn : rank v < n) :
    d.eraseVar n v r = arraysOf Registry.arrayOf k c r := by
  -- the registry knows no bounds but those of other classes, so the ranks do for it as well
  have hregistry : TypeVar.Ranked r.types.boundOf S rank := by
    refine hrank.mono fun v _ b hb => ?_
    have hforeign : v.owner ≠ d.id := fun hv => by
      rw [hown v hv] at hb
      cases hb
    rw [bounds, if_neg hforeign]
    exact hb
  induction h generalizing n with
  | foreign hforeign herases =>
    obtain ⟨n, rfl⟩ := Nat.exists_eq_succ_of_ne_zero (by omega : n ≠ 0)
    rw [eraseVar, if_neg hforeign]
    have hvar := hregistry.eraseVar_eq Registry.arrayOf hv herases (hregistry.lt_count _ hv)
    exact congrFun hvar r
  | @free v hself hb =>
    obtain ⟨n, rfl⟩ := Nat.exists_eq_succ_of_ne_zero (by omega : n ≠ 0)
    rw [eraseVar, if_pos hself, Option.map_eq_none_iff.1 hb]
    rfl
  | @cls v b hself hb hhead =>
    obtain ⟨n, rfl⟩ := Nat.exists_eq_succ_of_ne_zero (by omega : n ≠ 0)
    rw [eraseVar_own hself hb, TypeExpr.eraseWith_eq, hhead]
    rfl
  | @next v w b c k hself hb hhead hw ih =>
    obtain ⟨n, rfl⟩ := Nat.exists_eq_succ_of_ne_zero (by omega : n ≠ 0)
    have hstep : v.Below (d.bounds r.types.boundOf) w := by
      rw [TypeVar.below_iff, bounds, if_pos hself]
      exact ⟨b, hb, hhead⟩
    obtain ⟨hmem, hlt⟩ := hrank.below v hv w hstep
    have hnext := ih hmem (n := n) (by omega)
    rw [eraseVar_own hself hb, TypeExpr.eraseWith_eq, hhead, arraysOf_add]
    exact bind_congr_state hnext _

/-- The draft's erasure of a type is the class at the end of the bounds it follows, with an array
class asked for each of the brackets. -/
theorem erase_eq (hrank : TypeVar.Ranked (d.bounds r.types.boundOf) S rank)
    (hown : ∀ v : TypeVar, v.owner = d.id → r.types.boundOf v = none)
    (ht : ∀ v, t.headVar? = some v → v ∈ S) (h : d.ErasesTo r.types.boundOf t c k) :
    d.erase t r = arraysOf Registry.arrayOf k c r := by
  rw [erase, TypeExpr.eraseWith_eq]
  unfold ErasesTo at h
  cases hhead : t.headVar? with
  | some v =>
    rw [hhead] at h
    obtain ⟨j, hj, rfl⟩ := h
    have hv : v ∈ S := ht v hhead
    rw [arraysOf_add]
    exact bind_congr_state (eraseVar_eq hrank hown hv hj (hrank.lt_count v hv)) _
  | none =>
    rw [hhead] at h
    obtain ⟨rfl, rfl⟩ := h
    rfl

end Erasure

/-! ### Against the bounds of both -/

section Compare

variable {d : Draft} {f : TypeVar → Option TypeExpr} {u v w : TypeVar} {c : ClassId} {k : ℕ}

theorem Detours.head (hvw : v.Below f w) (h : d.Detours f w u) : d.Detours f v u := by
  obtain ⟨x, hx, hforeign, hlead⟩ := h
  exact ⟨x, .head hvw hx, hforeign, hlead⟩

/-- A variable of another class that leads to none of the draft's has the same chain in the
registry. -/
theorem erases_of_foreign (hv : v.owner ≠ d.id) (h : v.Erases (d.bounds f) c k)
    (hno : ∀ w, ¬d.Detours (d.bounds f) v w) : d.Erases f v c k := by
  refine .foreign hv (h.congr fun w hvw => ?_)
  have hw : w.owner ≠ d.id := by
    intro hw
    rcases Relation.reflTransGen_iff_eq_or_transGen.1 hvw with rfl | hlead
    · exact hv hw
    · exact hno w ⟨v, .refl, hv, hlead, hw⟩
  rw [bounds, if_neg hw]

/-- Where no variable of another class leads back to the draft, the draft follows the bounds of
both. -/
theorem erases_of_not_detours (h : v.Erases (d.bounds f) c k)
    (hno : ∀ w, ¬d.Detours (d.bounds f) v w) : d.Erases f v c k := by
  induction h with
  | @free v hb =>
    by_cases hv : v.owner = d.id
    · rw [bounds, if_pos hv] at hb
      exact .free hv hb
    · exact erases_of_foreign hv (.free hb) hno
  | @cls v b hb hhead =>
    by_cases hv : v.owner = d.id
    · rw [bounds, if_pos hv] at hb
      exact .cls hv hb hhead
    · exact erases_of_foreign hv (.cls hb hhead) hno
  | @next v w b c k hb hhead hw ih =>
    by_cases hv : v.owner = d.id
    · have hstep : v.Below (d.bounds f) w := TypeVar.below_iff.2 ⟨b, hb, hhead⟩
      rw [bounds, if_pos hv] at hb
      exact .next hv hb hhead (ih fun x hx => hno x (hx.head hstep))
    · exact erases_of_foreign hv (.next hb hhead hw) hno

/-- The registry's chain stops at the first variable of the draft, and the chain along the bounds of
both goes on from there. -/
theorem exists_own_of_leadsTo (hown : ∀ v : TypeVar, v.owner = d.id → f v = none)
    (h : v.Erases (d.bounds f) c k) (hvu : Relation.ReflTransGen (Below (d.bounds f)) v u)
    (hu : u.owner = d.id) :
    ∃ w i j, Relation.ReflTransGen (Below (d.bounds f)) v w ∧ w.owner = d.id ∧
      w.Erases (d.bounds f) c j ∧ k = i + j ∧ v.Erases f ClassId.object i ∧
      ∃ j' ≤ j, u.Erases (d.bounds f) c j' := by
  induction hvu using Relation.ReflTransGen.head_induction_on generalizing k with
  | refl => exact ⟨u, 0, k, .refl, hu, h, (Nat.zero_add k).symm, .free (hown u hu), k, le_rfl, h⟩
  | @head v x hstep hxu ih =>
    by_cases hv : v.owner = d.id
    · obtain ⟨j', hj', hle⟩ := h.of_reflTransGen (.head hstep hxu)
      exact ⟨v, 0, k, .refl, hv, h, (Nat.zero_add k).symm, .free (hown v hv), j', hle, hj'⟩
    · obtain ⟨b, hb, hhead⟩ := TypeVar.below_iff.1 hstep
      cases h with
      | free hnone => cases hnone.symm.trans hb
      | cls hb' hnone =>
        cases hb'.symm.trans hb
        cases hnone.symm.trans hhead
      | next hb' hhead' hx =>
        cases hb'.symm.trans hb
        cases hhead'.symm.trans hhead
        obtain ⟨w, i, j, hxw, hw, hwj, rfl, hxi, hrest⟩ := ih hx
        rw [bounds, if_neg hv] at hb
        exact ⟨w, b.brackets + i, j, .head hstep hxw, hw, hwj, by omega, .next hb hhead hxi, hrest⟩

/-- Where a variable of another class leads back to the draft, the draft's chain stops there. -/
theorem exists_detour (hown : ∀ v : TypeVar, v.owner = d.id → f v = none)
    (h : v.Erases (d.bounds f) c k) (hdetour : d.Detours (d.bounds f) v u) :
    ∃ w i j, d.Detours (d.bounds f) v w ∧ w.Erases (d.bounds f) c j ∧ k = i + j ∧
      d.Erases f v ClassId.object i ∧ ∃ j' ≤ j, u.Erases (d.bounds f) c j' := by
  obtain ⟨x, hvx, hx, hxu, hu⟩ := hdetour
  -- a variable of another class is handed over to the registry
  have hforeign : ∀ {v k}, v.owner ≠ d.id → v.Erases (d.bounds f) c k →
      Relation.ReflTransGen (Below (d.bounds f)) v x →
      ∃ w i j, d.Detours (d.bounds f) v w ∧ w.Erases (d.bounds f) c j ∧ k = i + j ∧
        d.Erases f v ClassId.object i ∧ ∃ j' ≤ j, u.Erases (d.bounds f) c j' := by
    intro v k hv h hvx
    obtain ⟨w, i, j, hvw, hw, hwj, hk, hvi, hrest⟩ :=
      exists_own_of_leadsTo hown h (hvx.trans hxu.to_reflTransGen) hu
    rcases Relation.reflTransGen_iff_eq_or_transGen.1 hvw with rfl | hlead
    · exact absurd hw hv
    · exact ⟨w, i, j, ⟨v, .refl, hv, hlead, hw⟩, hwj, hk, .foreign hv hvi, hrest⟩
  induction hvx using Relation.ReflTransGen.head_induction_on generalizing k with
  | refl => exact hforeign hx h .refl
  | @head v y hstep hyx ih =>
    by_cases hv : v.owner = d.id
    · obtain ⟨b, hb, hhead⟩ := TypeVar.below_iff.1 hstep
      cases h with
      | free hnone => cases hnone.symm.trans hb
      | cls hb' hnone =>
        cases hb'.symm.trans hb
        cases hnone.symm.trans hhead
      | next hb' hhead' hy =>
        cases hb'.symm.trans hb
        cases hhead'.symm.trans hhead
        obtain ⟨w, i, j, hyw, hwj, rfl, hyi, hrest⟩ := ih hy
        rw [bounds, if_pos hv] at hb
        exact ⟨w, b.brackets + i, j, hyw.head hstep, hwj, by omega, .next hv hb hhead hyi, hrest⟩
    · exact hforeign hv h (.head hstep hyx)

variable {t : TypeExpr}

/-- Whether a type reaches a variable of another class that leads back to one of the draft's. -/
def LeadsBack (d : Draft) (f : TypeVar → Option TypeExpr) (t : TypeExpr) (w : TypeVar) : Prop :=
  ∃ u, t.Reaches f u ∧ u.owner ≠ d.id ∧ u.LeadsTo f w ∧ w.owner = d.id

theorem LeadsBack.reaches (h : d.LeadsBack f t w) : t.Reaches f w := by
  obtain ⟨u, hu, -, hlead, -⟩ := h
  exact hu.tail hlead.to_reflTransGen

theorem leadsBack_iff : d.LeadsBack f t w ↔ ∃ v, t.headVar? = some v ∧ d.Detours f v w := by
  constructor
  · rintro ⟨u, ⟨v, hv, hvu⟩, hrest⟩
    exact ⟨v, hv, u, hvu, hrest⟩
  · rintro ⟨v, hv, u, hvu, hrest⟩
    exact ⟨u, ⟨v, hv, hvu⟩, hrest⟩

/-- Where nothing leads back to the draft, a type erases in the draft as it does along the bounds of
both. -/
theorem erasesTo_of_not_leadsBack (h : t.ErasesTo (d.bounds f) c k)
    (hno : ∀ w, ¬d.LeadsBack (d.bounds f) t w) : d.ErasesTo f t c k := by
  unfold TypeExpr.ErasesTo at h
  unfold ErasesTo
  cases hhead : t.headVar? with
  | some v =>
    rw [hhead] at h
    obtain ⟨j, hj, rfl⟩ := h
    have hdirect : d.Erases f v c j :=
      erases_of_not_detours hj fun w hw => hno w (leadsBack_iff.2 ⟨v, hhead, hw⟩)
    exact ⟨j, hdirect, rfl⟩
  | none =>
    rw [hhead] at h
    exact h

/-- Where something leads back to the draft, a type erases in the draft to arrays of the universal
base type, and what is lost is what a variable of the draft erases to. -/
theorem exists_of_leadsBack (hown : ∀ v : TypeVar, v.owner = d.id → f v = none)
    (h : t.ErasesTo (d.bounds f) c k) (hback : d.LeadsBack (d.bounds f) t u) :
    ∃ w i j, d.LeadsBack (d.bounds f) t w ∧ w.Erases (d.bounds f) c j ∧ k = i + j ∧
      d.ErasesTo f t ClassId.object i ∧ ∃ j' ≤ j, u.Erases (d.bounds f) c j' := by
  obtain ⟨v, hhead, hdetour⟩ := leadsBack_iff.1 hback
  unfold TypeExpr.ErasesTo at h
  unfold ErasesTo
  rw [hhead] at h ⊢
  obtain ⟨n, hn, rfl⟩ := h
  obtain ⟨w, i, j, hw, hwj, rfl, hvi, hrest⟩ := exists_detour hown hn hdetour
  exact ⟨w, t.brackets + i, j, leadsBack_iff.2 ⟨v, hhead, hw⟩, hwj, by omega, ⟨i, hvi, rfl⟩, hrest⟩

/-- A class found along the bounds of both and one found along the draft's are the same exactly if
nothing but the universal base type is lost where something leads back to the draft. -/
theorem eq_iff_of_isArrays {s : Registry} {a a' b : ClassId} (hs : s.Sound) (hr : s.Coherent)
    (hown : ∀ v : TypeVar, v.owner = d.id → f v = none) (h : t.ErasesTo (d.bounds f) b k)
    (ha : s.IsArrays k b a) (ha' : ∀ {b k}, d.ErasesTo f t b k → s.IsArrays k b a') :
    a = a' ↔ ∀ w, d.LeadsBack (d.bounds f) t w → w.Erases (d.bounds f) ClassId.object 0 := by
  constructor
  · rintro rfl w hw
    obtain ⟨-, i, j, -, -, rfl, hdraft, j', hle, hw'⟩ := exists_of_leadsBack hown h hw
    obtain ⟨rfl, rfl⟩ := hs.eq_zero_of_isArrays_add hr ha (ha' hdraft)
    obtain rfl : j' = 0 := by omega
    exact hw'
  · intro hobject
    by_cases hback : ∃ w, d.LeadsBack (d.bounds f) t w
    · obtain ⟨u, hu⟩ := hback
      obtain ⟨w, i, j, hw, hwj, rfl, hdraft, -⟩ := exists_of_leadsBack hown h hu
      obtain ⟨rfl, rfl⟩ := hwj.unique (hobject w hw)
      exact ha.unique (ha' hdraft)
    · exact ha.unique (ha' (erasesTo_of_not_leadsBack h fun w hw => hback ⟨w, hw⟩))

end Compare

end Draft

end ScriptSurface
