import Mathlib.Data.Set.Card
import Mathlib.Logic.Relation
import ScriptSurface.Hierarchy
import ScriptSurface.HostTypes

/-!
# Acyclic hierarchies and their walks

A hierarchy is acyclic when no class is its own ancestor.  As there are only finitely many classes,
each class then has a rank, smaller than the number of classes and greater than the ranks of its
direct supertypes (`HostTypes.Acyclic.exists_rank`); recursions through the supertypes are
inductions on it.

`Dequeues next queue walk` says that a first-in first-out queue, filled as the walk goes, is emptied
in the order of the walk.  `dequeues_breadthFirst` shows that the levels of `breadthFirst` follow
that order, as long as there are at least as many of them as the start has rank.
-/

namespace ScriptSurface

/-! ### Ranks -/

section Rank

variable {α : Type} {next : α → List α}

/-- Where no node is reached from itself, the number of nodes reached from a node is a rank. -/
theorem exists_rank_lt_ncard {S : Set α} (hfin : S.Finite) (hS : ∀ a ∈ S, ∀ b ∈ next a, b ∈ S)
    (acyclic : ∀ a ∈ S, ¬Relation.TransGen (fun a b => b ∈ next a) a a) :
    ∃ rank : α → ℕ, ∀ a ∈ S, rank a < S.ncard ∧ ∀ b ∈ next a, rank b < rank a := by
  set up : α → Set α := fun a => {b | Relation.TransGen (fun a b => b ∈ next a) a b}
  have up_subset : ∀ a ∈ S, up a ⊆ S := by
    intro a ha b hb
    induction hb with
    | single h => exact hS a ha _ h
    | tail _ h ih => exact hS _ ih _ h
  refine ⟨fun a => (up a).ncard, fun a ha => ⟨?_, fun b hb => ?_⟩⟩
  · refine Set.ncard_lt_ncard ⟨up_subset a ha, fun h => ?_⟩ hfin
    exact acyclic a ha (h ha)
  · -- what is above `b` is above `a`, and `b` itself is above `a` only
    have hab : Relation.TransGen (fun a b => b ∈ next a) a b := .single hb
    refine Set.ncard_lt_ncard ⟨fun c hc => hab.trans hc, fun h => ?_⟩
      (hfin.subset (up_subset a ha))
    exact acyclic b (hS a ha b hb) (h hab)

/-- A measure that every step makes smaller keeps nodes from being reached from themselves. -/
theorem acyclic_of_measure (μ : α → ℕ) (hμ : ∀ a, ∀ b ∈ next a, μ b < μ a) (a : α) :
    ¬Relation.TransGen (fun a b => b ∈ next a) a a := by
  have down : ∀ b, Relation.TransGen (fun a b => b ∈ next a) a b → μ b < μ a := by
    intro b h
    induction h with
    | single h => exact hμ _ _ h
    | tail _ h ih => exact (hμ _ _ h).trans ih
  exact fun h => (down a h).false

end Rank

/-! ### Queues -/

/-- Taking nodes from the front of the queue, and adding the successors of each at its end, until
the queue is empty, takes the nodes in the order of the walk. -/
inductive Dequeues {α : Type} (next : α → List α) : List α → List α → Prop where
  /-- Nothing is left. -/
  | done : Dequeues next [] []
  /-- The node at the front is taken. -/
  | take {x : α} {queue walk : List α} :
    Dequeues next (queue ++ next x) walk → Dequeues next (x :: queue) (x :: walk)

namespace Dequeues

variable {α : Type} {next : α → List α} {queue walk walk' : List α}

theorem unique (h : Dequeues next queue walk) (h' : Dequeues next queue walk') :
    walk = walk' := by
  induction h generalizing walk' with
  | done => cases h'; rfl
  | take _ ih =>
    cases h' with
    | take h' => rw [ih h']

/-- A level at the front of the queue is taken before its successors. -/
theorem level_append {level rest : List α}
    (h : Dequeues next (rest ++ level.flatMap next) walk) :
    Dequeues next (level ++ rest) (level ++ walk) := by
  induction level generalizing rest with
  | nil => simpa using h
  | cons x level ih =>
    rw [List.cons_append, List.cons_append]
    -- the successors of the first node queue up behind the rest of the level and what follows it
    refine .take ?_
    rw [List.append_assoc]
    exact ih (by rwa [List.flatMap_cons, ← List.append_assoc] at h)

end Dequeues

section Levels

variable {α : Type} {next : α → List α} {rank : α → ℕ} {S : Set α}

theorem dequeues_levelsFrom (hS : ∀ a ∈ S, ∀ b ∈ next a, b ∈ S)
    (hrank : ∀ a ∈ S, ∀ b ∈ next a, rank b < rank a) {n : ℕ} {level : List α}
    (hlevel : ∀ a ∈ level, a ∈ S ∧ rank a < n) :
    Dequeues next level (levelsFrom next n level) := by
  induction n generalizing level with
  | zero =>
    have hnil : level = [] := List.eq_nil_iff_forall_not_mem.2 fun a ha =>
      Nat.not_lt_zero _ (hlevel a ha).2
    rw [hnil, levelsFrom]
    exact .done
  | succ n ih =>
    rw [levelsFrom]
    split_ifs with hempty
    · rw [List.isEmpty_iff.1 hempty]
      exact .done
    · have hnext : ∀ b ∈ level.flatMap next, b ∈ S ∧ rank b < n := by
        intro b hb
        obtain ⟨a, ha, hab⟩ := List.mem_flatMap.1 hb
        obtain ⟨haS, han⟩ := hlevel a ha
        have := hrank a haS b hab
        exact ⟨hS a haS b hab, by omega⟩
      have h : Dequeues next (level ++ []) (level ++ levelsFrom next n (level.flatMap next)) :=
        .level_append (ih hnext)
      rwa [List.append_nil] at h

theorem dequeues_breadthFirst (hS : ∀ a ∈ S, ∀ b ∈ next a, b ∈ S)
    (hrank : ∀ a ∈ S, ∀ b ∈ next a, rank b < rank a) {n : ℕ} {start : α} (hstart : start ∈ S)
    (hn : rank start < n) : Dequeues next [start] (breadthFirst next n start) :=
  dequeues_levelsFrom hS hrank (by simp [hstart, hn])

/-- The walk depends only on the successors of the nodes on it. -/
theorem levelsFrom_congr {next' : α → List α} (hS : ∀ a ∈ S, ∀ b ∈ next a, b ∈ S)
    (hnext : ∀ a ∈ S, next' a = next a) {n : ℕ} {level : List α} (hlevel : ∀ a ∈ level, a ∈ S) :
    levelsFrom next' n level = levelsFrom next n level := by
  induction n generalizing level with
  | zero => rfl
  | succ n ih =>
    have hflat : level.flatMap next' = level.flatMap next :=
      List.flatMap_congr fun a ha => hnext a (hlevel a ha)
    have hup : ∀ b ∈ level.flatMap next, b ∈ S := by
      intro b hb
      obtain ⟨a, ha, hab⟩ := List.mem_flatMap.1 hb
      exact hS a (hlevel a ha) b hab
    rw [levelsFrom, levelsFrom, hflat, ih hup]

end Levels

/-! ### Hierarchies of classes -/

theorem ClassId.toFin_injective : Function.Injective fun c : ClassId => c.index.toFin := by
  intro c d h
  cases c; cases d
  exact congrArg ClassId.mk (UInt32.toFin_inj.1 h)

instance : Finite ClassId := .of_injective _ ClassId.toFin_injective

theorem ClassId.card_le : Nat.card ClassId ≤ ClassId.count := by
  have h := Nat.card_le_card_of_injective _ ClassId.toFin_injective
  rwa [Nat.card_fin] at h

namespace HostTypes

variable {h : HostTypes}

/-- Whether a class is a proper ancestor of another: reached from it by going from class to direct
supertype, at least once. -/
def HasAncestor (h : HostTypes) : ClassId → ClassId → Prop :=
  Relation.TransGen fun c p => p ∈ h.supertypes c

/-- No class is its own ancestor. -/
def Acyclic (h : HostTypes) : Prop := ∀ c, ¬h.HasAncestor c c

theorem Acyclic.exists_rank (hac : h.Acyclic) :
    ∃ rank : ClassId → ℕ, ∀ c, rank c < ClassId.count ∧ ∀ p ∈ h.supertypes c, rank p < rank c := by
  obtain ⟨rank, hrank⟩ := exists_rank_lt_ncard Set.finite_univ (fun _ _ _ _ => Set.mem_univ _)
    fun c _ => hac c
  refine ⟨rank, fun c => ⟨?_, (hrank c (Set.mem_univ c)).2⟩⟩
  have := (hrank c (Set.mem_univ c)).1
  rw [Set.ncard_univ] at this
  exact this.trans_le ClassId.card_le

end HostTypes

end ScriptSurface
