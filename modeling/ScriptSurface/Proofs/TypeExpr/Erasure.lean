import ScriptSurface.Proofs.Hierarchy
import ScriptSurface.TypeExpr.Erasure

/-!
# Erasure along bounds

Without its array brackets and type arguments, a type is a class or a variable, its head.  Erasing
a type is erasing its head and then asking for as many array classes as the type has brackets
(`TypeExpr.eraseWith_eq`).  A variable has the head of its bound next, and so on: erasing it follows
this chain and gathers the brackets of the bounds.

`TypeVar.Erases` says where the chain ends, and `TypeExpr.ErasesTo` the same of a type: a class and
a number of brackets, with no word about array classes.  Where no variable of the chain is met
twice, there is such an end (`TypeExpr.exists_erasesTo`), the number of bounds that erasure follows
is enough to get there, and the erasure is the class with that many array classes asked for
(`TypeExpr.erase_eq`), whoever answers these.
-/

namespace ScriptSurface

/-! ### Heads and brackets -/

namespace TypeExpr

/-- The variable behind the array brackets, if there is one. -/
def headVar? : TypeExpr → Option TypeVar
  | array t _ => headVar? t
  | var v _ => some v
  | _ => none

/-- The class behind the array brackets; the universal base type where nothing is known. -/
def headClass : TypeExpr → ClassId
  | plain c _ => c
  | array t _ => headClass t
  | applied raw _ _ => raw
  | _ => ClassId.object

/-- The number of array brackets. -/
def brackets : TypeExpr → ℕ
  | array t _ => brackets t + 1
  | _ => 0

end TypeExpr

section Arrays

variable {m : Type → Type} [Monad m]

/-- Asks for the array class of a class, for its array class, and so on, so many times. -/
def arraysOf (arrayClass : ClassId → m ClassId) : ℕ → ClassId → m ClassId
  | 0, c => pure c
  | n + 1, c => arraysOf arrayClass n c >>= arrayClass

variable [LawfulMonad m] (arrayClass : ClassId → m ClassId)

theorem arraysOf_add (i j : ℕ) (c : ClassId) :
    arraysOf arrayClass (i + j) c = arraysOf arrayClass j c >>= arraysOf arrayClass i := by
  induction i with
  | zero =>
    rw [Nat.zero_add]
    exact (bind_pure _).symm
  | succ i ih =>
    rw [Nat.add_right_comm, arraysOf, ih, bind_assoc]
    rfl

/-- Erasing a type is erasing its head and asking for array classes. -/
theorem TypeExpr.eraseWith_eq (ofVar : TypeVar → m ClassId) (t : TypeExpr) :
    t.eraseWith arrayClass ofVar
      = (match t.headVar? with
          | some v => ofVar v
          | none => pure t.headClass) >>= arraysOf arrayClass t.brackets := by
  induction t using TypeExpr.induct with
  | array t s ih =>
    rw [eraseWith, ih, bind_assoc]
    rfl
  | _ => exact (bind_pure _).symm

end Arrays

/-! ### Chains of bounds -/

/-- Whether the head of a variable's bound is another variable. -/
def TypeVar.Below (f : TypeVar → Option TypeExpr) (v w : TypeVar) : Prop :=
  (f v).bind TypeExpr.headVar? = some w

/-- Whether one variable leads to another along bounds, in one step or more. -/
def TypeVar.LeadsTo (f : TypeVar → Option TypeExpr) : TypeVar → TypeVar → Prop :=
  Relation.TransGen (TypeVar.Below f)

/-- Whether a variable is the head of a type or comes after it along bounds. -/
def TypeExpr.Reaches (f : TypeVar → Option TypeExpr) (t : TypeExpr) (v : TypeVar) : Prop :=
  ∃ u, t.headVar? = some u ∧ Relation.ReflTransGen (TypeVar.Below f) u v

/-- The class at the end of a variable's chain of bounds, and the number of brackets on the way. -/
inductive TypeVar.Erases (f : TypeVar → Option TypeExpr) : TypeVar → ClassId → ℕ → Prop where
  /-- Nobody declares the variable. -/
  | free {v : TypeVar} (hv : f v = none) : Erases f v ClassId.object 0
  /-- The chain ends with a class. -/
  | cls {v : TypeVar} {b : TypeExpr} (hv : f v = some b) (hb : b.headVar? = none) :
    Erases f v b.headClass b.brackets
  /-- The chain goes on. -/
  | next {v w : TypeVar} {b : TypeExpr} {c : ClassId} {k : ℕ} (hv : f v = some b)
    (hb : b.headVar? = some w) (hw : Erases f w c k) : Erases f v c (b.brackets + k)

/-- The class that is left of a type at the end of the bounds, and the number of brackets around
it. -/
def TypeExpr.ErasesTo (f : TypeVar → Option TypeExpr) (t : TypeExpr) (c : ClassId) (k : ℕ) : Prop :=
  match t.headVar? with
  | some v => ∃ j, v.Erases f c j ∧ k = t.brackets + j
  | none => c = t.headClass ∧ k = t.brackets

namespace TypeVar

variable {f f' : TypeVar → Option TypeExpr} {v w : TypeVar} {c c' : ClassId} {k k' : ℕ}

theorem below_iff : v.Below f w ↔ ∃ b, f v = some b ∧ b.headVar? = some w :=
  Option.bind_eq_some_iff

theorem Erases.unique (h : v.Erases f c k) (h' : v.Erases f c' k') : c = c' ∧ k = k' := by
  induction h generalizing c' k' with
  | free hv =>
    cases h' with
    | free => exact ⟨rfl, rfl⟩
    | cls hv' | next hv' => cases hv.symm.trans hv'
  | cls hv hb =>
    cases h' with
    | free hv' => cases hv.symm.trans hv'
    | cls hv' =>
      cases hv.symm.trans hv'
      exact ⟨rfl, rfl⟩
    | next hv' hb' =>
      cases hv.symm.trans hv'
      cases hb.symm.trans hb'
  | next hv hb _ ih =>
    cases h' with
    | free hv' => cases hv.symm.trans hv'
    | cls hv' hb' =>
      cases hv.symm.trans hv'
      cases hb.symm.trans hb'
    | next hv' hb' hw' =>
      cases hv.symm.trans hv'
      cases hb.symm.trans hb'
      obtain ⟨rfl, rfl⟩ := ih hw'
      exact ⟨rfl, rfl⟩

/-- A variable further along a chain has the same end, with at most as many brackets to go. -/
theorem Erases.of_reflTransGen (h : v.Erases f c k)
    (hvw : Relation.ReflTransGen (Below f) v w) : ∃ j, w.Erases f c j ∧ j ≤ k := by
  induction hvw using Relation.ReflTransGen.head_induction_on generalizing k with
  | refl => exact ⟨k, h, le_rfl⟩
  | head hstep _ ih =>
    obtain ⟨b, hb, hhead⟩ := below_iff.1 hstep
    cases h with
    | free hv => cases hv.symm.trans hb
    | cls hv hnone =>
      cases hv.symm.trans hb
      cases hhead.symm.trans hnone
    | next hv hsome hw =>
      cases hv.symm.trans hb
      cases hhead.symm.trans hsome
      obtain ⟨j, hj, hle⟩ := ih hw
      exact ⟨j, hj, by omega⟩

theorem Erases.congr (h : v.Erases f c k)
    (hf : ∀ w, Relation.ReflTransGen (Below f) v w → f' w = f w) : v.Erases f' c k := by
  induction h with
  | free hv => exact .free ((hf _ .refl).trans hv)
  | cls hv hb => exact .cls ((hf _ .refl).trans hv) hb
  | next hv hb _ ih =>
    refine .next ((hf _ .refl).trans hv) hb (ih fun w hw => hf w ?_)
    exact .head (below_iff.2 ⟨_, hv, hb⟩) hw

end TypeVar

/-! ### Chains that end -/

theorem TypeVar.toFin_injective :
    Function.Injective fun v : TypeVar => (v.owner.index.toFin, v.index.toFin) := by
  intro v w h
  cases v; cases w
  obtain ⟨howner, hindex⟩ := Prod.mk.inj h
  rw [TypeVar.mk.injEq]
  exact ⟨ClassId.toFin_injective howner, UInt16.toFin_inj.1 hindex⟩

instance : Finite TypeVar := .of_injective _ TypeVar.toFin_injective

theorem TypeVar.card_le : Nat.card TypeVar ≤ TypeVar.count := by
  have h := Nat.card_le_card_of_injective _ TypeVar.toFin_injective
  rwa [Nat.card_prod, Nat.card_fin, Nat.card_fin] at h

/-- Each variable of a set has a rank, smaller than the number of variables and greater than that of
the variable next on its chain, which is in the set too. -/
structure TypeVar.Ranked (f : TypeVar → Option TypeExpr) (S : Set TypeVar) (rank : TypeVar → ℕ) :
    Prop where
  /-- Ranks are smaller than the number of variables. -/
  lt_count : ∀ v ∈ S, rank v < TypeVar.count
  /-- Ranks go down along bounds. -/
  below : ∀ v ∈ S, ∀ w, v.Below f w → w ∈ S ∧ rank w < rank v

namespace TypeVar

variable {f f' : TypeVar → Option TypeExpr} {S : Set TypeVar} {rank : TypeVar → ℕ}
  {v w : TypeVar} {c : ClassId} {k : ℕ}

/-- Where no variable leads to itself, there are ranks. -/
theorem exists_ranked (hS : ∀ v ∈ S, ∀ w, v.Below f w → w ∈ S)
    (hac : ∀ v ∈ S, ¬v.LeadsTo f v) : ∃ rank, Ranked f S rank := by
  -- the bounds as a graph in which each variable has at most one successor
  let next (v : TypeVar) : List TypeVar := ((f v).bind TypeExpr.headVar?).toList
  have hbelow : (fun v w => w ∈ next v) = Below f := by
    funext v w
    exact propext Option.mem_toList
  have hclosed : ∀ v ∈ S, ∀ w ∈ next v, w ∈ S := fun v hv w hw =>
    hS v hv w (Option.mem_toList.1 hw)
  have hacyclic : ∀ v ∈ S, ¬Relation.TransGen (fun v w => w ∈ next v) v v := by
    rw [hbelow]
    exact hac
  obtain ⟨rank, hrank⟩ := exists_rank_lt_ncard S.toFinite hclosed hacyclic
  refine ⟨rank, fun v hv => ?_, fun v hv w hw => ⟨hS v hv w hw, ?_⟩⟩
  · have hle : S.ncard ≤ Nat.card TypeVar := by
      rw [← Set.ncard_univ]
      exact Set.ncard_le_ncard (Set.subset_univ S)
    exact (hrank v hv).1.trans_le (hle.trans card_le)
  · exact (hrank v hv).2 w (Option.mem_toList.2 hw)

theorem Ranked.mono (h : Ranked f S rank) (hf : ∀ v ∈ S, ∀ b, f' v = some b → f v = some b) :
    Ranked f' S rank where
  lt_count := h.lt_count
  below v hv w hw := by
    obtain ⟨b, hb, hhead⟩ := below_iff.1 hw
    exact h.below v hv w (below_iff.2 ⟨b, hf v hv b hb, hhead⟩)

theorem Ranked.mem_of_reflTransGen (h : Ranked f S rank) (hv : v ∈ S)
    (hvw : Relation.ReflTransGen (Below f) v w) : w ∈ S := by
  induction hvw with
  | refl => exact hv
  | tail _ hstep ih => exact (h.below _ ih _ hstep).1

theorem Ranked.exists_erases (h : Ranked f S rank) (hv : v ∈ S) : ∃ c k, v.Erases f c k := by
  induction hn : rank v using Nat.strong_induction_on generalizing v with
  | _ n ih =>
    cases hb : f v with
    | none => exact ⟨_, _, .free hb⟩
    | some b =>
      cases hhead : b.headVar? with
      | none => exact ⟨_, _, .cls hb hhead⟩
      | some w =>
        obtain ⟨hw, hlt⟩ := h.below v hv w (below_iff.2 ⟨b, hb, hhead⟩)
        obtain ⟨c, k, hwk⟩ := ih (rank w) (hn ▸ hlt) hw rfl
        exact ⟨c, _, .next hb hhead hwk⟩

/-- The bounds that are followed are enough to come to the end. -/
theorem Ranked.eraseVar_eq {m : Type → Type} [Monad m] [LawfulMonad m] (h : Ranked f S rank)
    (arrayClass : ClassId → m ClassId) (hv : v ∈ S) (herases : v.Erases f c k) {n : ℕ}
    (hn : rank v < n) : TypeExpr.eraseVar arrayClass f n v = arraysOf arrayClass k c := by
  -- following a bound takes one off `n` and at least one off the rank
  induction herases generalizing n with
  | free hnone =>
    obtain ⟨n, rfl⟩ := Nat.exists_eq_succ_of_ne_zero (by omega : n ≠ 0)
    rw [TypeExpr.eraseVar, hnone]
    rfl
  | cls hb hhead =>
    obtain ⟨n, rfl⟩ := Nat.exists_eq_succ_of_ne_zero (by omega : n ≠ 0)
    rw [TypeExpr.eraseVar, hb]
    dsimp only
    rw [TypeExpr.eraseWith_eq, hhead]
    exact pure_bind _ _
  | @next v w b c k hb hhead _ ih =>
    obtain ⟨n, rfl⟩ := Nat.exists_eq_succ_of_ne_zero (by omega : n ≠ 0)
    obtain ⟨hw, hlt⟩ := h.below v hv w (below_iff.2 ⟨b, hb, hhead⟩)
    rw [TypeExpr.eraseVar, hb]
    dsimp only
    rw [TypeExpr.eraseWith_eq, hhead, arraysOf_add]
    dsimp only
    rw [ih hw (by omega)]

end TypeVar

/-! ### Types -/

namespace TypeExpr

variable {f f' : TypeVar → Option TypeExpr} {S : Set TypeVar} {rank : TypeVar → ℕ} {t : TypeExpr}
  {v w : TypeVar} {c : ClassId} {k : ℕ}

theorem Reaches.tail (h : t.Reaches f v) (hvw : Relation.ReflTransGen (TypeVar.Below f) v w) :
    t.Reaches f w := by
  obtain ⟨u, hu, huv⟩ := h
  exact ⟨u, hu, huv.trans hvw⟩

/-- Where no variable that a type reaches leads to itself, these variables have ranks. -/
theorem exists_ranked (hac : ∀ v, t.Reaches f v → ¬v.LeadsTo f v) :
    ∃ rank, TypeVar.Ranked f {v | t.Reaches f v} rank :=
  TypeVar.exists_ranked (fun _ hv _ hw => hv.tail (.single hw)) hac

theorem exists_erasesTo (hrank : TypeVar.Ranked f S rank) (ht : ∀ v, t.headVar? = some v → v ∈ S) :
    ∃ c k, t.ErasesTo f c k := by
  unfold ErasesTo
  cases hhead : t.headVar? with
  | none => exact ⟨_, _, rfl, rfl⟩
  | some v =>
    obtain ⟨c, j, hj⟩ := hrank.exists_erases (ht v hhead)
    exact ⟨c, _, j, hj, rfl⟩

theorem erasesTo_var {s : Stamp} : (var v s).ErasesTo f c k ↔ v.Erases f c k := by
  constructor
  · rintro ⟨j, hj, rfl⟩
    show v.Erases f c (0 + j)
    rwa [Nat.zero_add]
  · exact fun h => ⟨k, h, (Nat.zero_add k).symm⟩

/-- A variable that a type reaches has the same end as the type, with at most as many brackets. -/
theorem ErasesTo.of_reaches (h : t.ErasesTo f c k) (hv : t.Reaches f v) :
    ∃ j ≤ k, v.Erases f c j := by
  obtain ⟨u, hu, huv⟩ := hv
  unfold ErasesTo at h
  rw [hu] at h
  obtain ⟨i, hi, rfl⟩ := h
  obtain ⟨j, hj, hle⟩ := hi.of_reflTransGen huv
  exact ⟨j, by omega, hj⟩

theorem ErasesTo.congr (h : t.ErasesTo f c k) (hf : ∀ v, t.Reaches f v → f' v = f v) :
    t.ErasesTo f' c k := by
  unfold ErasesTo at h ⊢
  split at h
  · next v hhead =>
    obtain ⟨j, hj, rfl⟩ := h
    exact ⟨j, hj.congr fun w hw => hf w ⟨v, hhead, hw⟩, rfl⟩
  · exact h

/-- The erasure of a type is the class at the end of the bounds with an array class asked for each
of the brackets. -/
theorem erase_eq {m : Type → Type} [Monad m] [LawfulMonad m] (hrank : TypeVar.Ranked f S rank)
    (ht : ∀ v, t.headVar? = some v → v ∈ S) (arrayClass : ClassId → m ClassId)
    (h : t.ErasesTo f c k) : t.erase arrayClass f = arraysOf arrayClass k c := by
  rw [erase, eraseWith_eq]
  unfold ErasesTo at h
  cases hhead : t.headVar? with
  | some v =>
    rw [hhead] at h
    obtain ⟨j, hj, rfl⟩ := h
    have hv : v ∈ S := ht v hhead
    rw [arraysOf_add]
    dsimp only
    rw [hrank.eraseVar_eq arrayClass hv hj (hrank.lt_count v hv)]
  | none =>
    rw [hhead] at h
    obtain ⟨rfl, rfl⟩ := h
    exact pure_bind _ _

end TypeExpr

end ScriptSurface
