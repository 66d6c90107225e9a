import ScriptSurface.Proofs.Hierarchy
import ScriptSurface.Proofs.Paths

/-!
# The levels of a walk

A walk from a node takes what is reached by no link, then what is reached by one link, and so on,
and each of these levels in the order of the links (`levelsFrom_eq`).  So it takes each path from
the node once, shorter paths before longer ones, and goes to where the path leads: `Follows`.  What
it comes by first is therefore nearest (`Follows.isNearest`).

A walk that starts from several nodes interleaves the walks from each of them, level by level.  What
it comes by first it comes by first on one of these, and the same goes for what it comes by last
(`exists_first_levelsFrom`, `exists_last_levelsFrom`).
-/

namespace ScriptSurface

variable {α β : Type} {next : α → List α} {n : ℕ}

/-! ### Levels -/

/-- The nodes reached by so many links, once for each path to them. -/
def nodesAt (next : α → List α) : ℕ → α → List α
  | 0, a => [a]
  | n + 1, a => (next a).flatMap (nodesAt next n)

theorem levelsFrom_nil (n : ℕ) : levelsFrom next n [] = [] := by
  cases n <;> rfl

theorem levelsFrom_succ (n : ℕ) (level : List α) :
    levelsFrom next (n + 1) level = level ++ levelsFrom next n (level.flatMap next) := by
  rw [levelsFrom]
  split_ifs with hempty
  · rw [List.isEmpty_iff.1 hempty, List.flatMap_nil, levelsFrom_nil]
    rfl
  · rfl

theorem levelsFrom_eq (n : ℕ) (level : List α) :
    levelsFrom next n level = (List.range n).flatMap fun d => level.flatMap (nodesAt next d) := by
  induction n generalizing level with
  | zero => rfl
  | succ n ih =>
    have hlevel : level.flatMap (nodesAt next 0) = level := List.flatMap_singleton' level
    rw [levelsFrom_succ, ih, List.range_succ_eq_map, List.flatMap_cons, List.flatMap_map, hlevel]
    simp only [List.flatMap_assoc, nodesAt]

theorem breadthFirst_eq (n : ℕ) (start : α) :
    breadthFirst next n start = (List.range n).flatMap fun d => nodesAt next d start := by
  rw [breadthFirst, levelsFrom_eq]
  simp only [List.flatMap_singleton]

/-- A walk stays within what its steps do not leave. -/
theorem mem_levelsFrom {S : Set α} (hS : ∀ a ∈ S, ∀ b ∈ next a, b ∈ S) {level : List α}
    (hlevel : ∀ a ∈ level, a ∈ S) : ∀ a ∈ levelsFrom next n level, a ∈ S := by
  induction n generalizing level with
  | zero => exact fun a ha => absurd ha List.not_mem_nil
  | succ n ih =>
    have hup : ∀ b ∈ level.flatMap next, b ∈ S := by
      intro b hb
      obtain ⟨a, ha, hab⟩ := List.mem_flatMap.1 hb
      exact hS a (hlevel a ha) b hab
    intro a ha
    rw [levelsFrom_succ] at ha
    exact (List.mem_append.1 ha).elim (hlevel a) (ih hup a)

/-- A level is where the paths of its length lead. -/
theorem map_some_nodesAt (n : ℕ) (a : α) :
    (nodesAt next n a).map some = (pathsOf next n a).map (endOf? next · a) := by
  induction n generalizing a with
  | zero => rfl
  | succ n ih =>
    have hlink : ∀ x ∈ (next a).zipIdx, (nodesAt next n x.1).map some
        = ((pathsOf next n x.1).map (x.2 :: ·)).map (endOf? next · a) := by
      intro x hx
      rw [ih, List.map_map]
      exact List.map_congr_left fun path _ =>
        (endOf?_cons (List.mem_zipIdx_iff_getElem?.1 hx) path).symm
    calc (nodesAt next (n + 1) a).map some
        = ((next a).zipIdx.map Prod.fst).flatMap fun b => (nodesAt next n b).map some := by
          rw [List.zipIdx_map_fst, nodesAt, List.map_flatMap]
      _ = (next a).zipIdx.flatMap fun x =>
            ((pathsOf next n x.1).map (x.2 :: ·)).map (endOf? next · a) := by
          rw [List.flatMap_map]
          exact List.flatMap_congr hlink
      _ = (pathsOf next (n + 1) a).map (endOf? next · a) := by
          rw [pathsOf, List.map_flatMap]

/-! ### Walks follow paths -/

/-- The walk follows the paths from a node, each of them once and shorter ones first: it takes the
node that each of them leads to. -/
structure Follows (next : α → List α) (start : α) (paths : List (List ℕ)) (walk : List α) :
    Prop where
  /-- The walk takes the nodes that the paths lead to. -/
  ends : walk.map some = paths.map (endOf? next · start)
  /-- No path is followed twice. -/
  nodup : paths.Nodup
  /-- All paths are followed. -/
  mem_iff : ∀ path, path ∈ paths ↔ (endOf? next path start).isSome = true
  /-- Shorter paths are followed first. -/
  ascending : paths.Pairwise fun p q => p.length ≤ q.length

section Rank

variable {rank : α → ℕ} {S : Set α}

theorem length_le_rank (hS : ∀ a ∈ S, ∀ b ∈ next a, b ∈ S)
    (hrank : ∀ a ∈ S, ∀ b ∈ next a, rank b < rank a) {path : List ℕ} {a : α} (ha : a ∈ S)
    (hpath : (endOf? next path a).isSome = true) : path.length ≤ rank a := by
  induction path generalizing a with
  | nil => exact Nat.zero_le _
  | cons i path ih =>
    obtain ⟨c, hc⟩ := Option.isSome_iff_exists.1 hpath
    obtain ⟨b, hb, hc⟩ := exists_of_endOf?_cons hc
    have hmem : b ∈ next a := List.mem_of_getElem? hb
    have hlength := ih (hS a ha b hmem) (by rw [hc]; rfl)
    have := hrank a ha b hmem
    rw [List.length_cons]
    omega

/-- A walk through enough levels follows all paths. -/
theorem follows_breadthFirst (hS : ∀ a ∈ S, ∀ b ∈ next a, b ∈ S)
    (hrank : ∀ a ∈ S, ∀ b ∈ next a, rank b < rank a) {start : α} (hstart : start ∈ S)
    (hn : rank start < n) :
    Follows next start ((List.range n).flatMap fun d => pathsOf next d start)
      (breadthFirst next n start) where
  ends := by
    rw [breadthFirst_eq, List.map_flatMap, List.map_flatMap]
    exact List.flatMap_congr fun d _ => map_some_nodesAt d start
  nodup := by
    rw [List.nodup_flatMap]
    refine ⟨fun d _ => nodup_pathsOf d start, List.nodup_range.imp fun {d e} hne path hd he => ?_⟩
    exact hne ((mem_pathsOf_iff.1 hd).1.symm.trans (mem_pathsOf_iff.1 he).1)
  mem_iff path := by
    rw [List.mem_flatMap]
    constructor
    · rintro ⟨d, -, hpath⟩
      exact (mem_pathsOf_iff.1 hpath).2
    · intro hpath
      have hlength := (length_le_rank hS hrank hstart hpath).trans_lt hn
      exact ⟨path.length, List.mem_range.2 hlength, mem_pathsOf_iff.2 ⟨rfl, hpath⟩⟩
  ascending := by
    rw [List.pairwise_flatMap]
    refine ⟨fun d _ => List.pairwise_of_forall_mem_list fun p hp q hq => ?_,
      List.pairwise_lt_range.imp fun {d e} hlt p hp q hq => ?_⟩
    · rw [(mem_pathsOf_iff.1 hp).1, (mem_pathsOf_iff.1 hq).1]
    · rw [(mem_pathsOf_iff.1 hp).1, (mem_pathsOf_iff.1 hq).1]
      exact hlt.le

/-- Through enough levels, it does not matter how many more there could be. -/
theorem levelsFrom_eq_of_rank (hS : ∀ a ∈ S, ∀ b ∈ next a, b ∈ S)
    (hrank : ∀ a ∈ S, ∀ b ∈ next a, rank b < rank a) {m : ℕ} {level : List α}
    (hn : ∀ a ∈ level, a ∈ S ∧ rank a < n) (hm : ∀ a ∈ level, a ∈ S ∧ rank a < m) :
    levelsFrom next n level = levelsFrom next m level :=
  (dequeues_levelsFrom hS hrank hn).unique (dequeues_levelsFrom hS hrank hm)

end Rank

/-- There are as many things of some kind as a list without repeats lists. -/
theorem ncard_eq_length {γ : Type} [DecidableEq γ] {l : List γ} (hl : l.Nodup) {S : Set γ}
    (hS : ∀ x, x ∈ S ↔ x ∈ l) : S.ncard = l.length := by
  have hset : S = (l.toFinset : Set γ) := by
    ext x
    rw [hS, List.coe_toFinset]
    rfl
  rw [hset, Set.ncard_coe_finset, List.toFinset_card_of_nodup hl]

namespace Follows

variable {start : α} {paths : List (List ℕ)} {walk : List α}

/-- A walk is as long as there are paths. -/
theorem length_eq (h : Follows next start paths walk) :
    walk.length = {path | (endOf? next path start).isSome = true}.ncard := by
  have hpaths : {path | (endOf? next path start).isSome = true}.ncard = paths.length :=
    ncard_eq_length h.nodup fun path => (h.mem_iff path).symm
  rw [hpaths, ← List.length_map some, h.ends, List.length_map]

/-- A walk takes a node as often as there are paths to it. -/
theorem count_eq [DecidableEq α] (h : Follows next start paths walk) (a : α) :
    walk.count a = {path | endOf? next path start = some a}.ncard := by
  have hmem : ∀ path, path ∈ {path | endOf? next path start = some a} ↔
      path ∈ paths.filter fun path => endOf? next path start = some a := by
    intro path
    rw [List.mem_filter, h.mem_iff, decide_eq_true_eq]
    exact ⟨fun hpath => ⟨Option.isSome_of_eq_some hpath, hpath⟩, And.right⟩
  rw [ncard_eq_length (h.nodup.filter _) hmem, ← List.countP_eq_length_filter]
  calc walk.count a = (walk.map some).count (some a) :=
        (List.count_map_of_injective walk some (Option.some_injective α) a).symm
    _ = paths.countP fun path => endOf? next path start = some a := by
        rw [h.ends, List.count, List.countP_map]
        exact List.countP_congr fun path _ => by simp

end Follows

/-! ### What is nearest -/

/-- What is found, if anything, is what some node supplies, and no node that a shorter path leads to
supplies anything. -/
structure IsNearest (next : α → List α) (start : α) (supply : α → Option β) (found : Option β) :
    Prop where
  /-- What is found comes from the end of a path, and no shorter path leads to something. -/
  path : ∀ b, found = some b → ∃ p a, endOf? next p start = some a ∧ supply a = some b ∧
    ∀ q c, endOf? next q start = some c → (supply c).isSome = true → p.length ≤ q.length
  /-- Nothing is found only where no path leads to anything. -/
  none : found = none → ∀ p a, endOf? next p start = some a → supply a = none

theorem Follows.isNearest {start : α} {paths : List (List ℕ)} {walk : List α}
    (h : Follows next start paths walk) (supply : α → Option β) :
    IsNearest next start supply (walk.findSome? supply) where
  path b hb := by
    obtain ⟨before, a, after, rfl, ha, hbefore⟩ := List.findSome?_eq_some_iff.1 hb
    -- cut the paths where the walk comes by what is found
    obtain ⟨shorter, rest, rfl, hshorter, hrest⟩ := List.map_eq_append_iff.1
      (h.ends.symm.trans List.map_append)
    obtain ⟨p, longer, rfl, hp, -⟩ := List.map_eq_cons_iff.1 hrest
    refine ⟨p, a, hp, ha, fun q c hq hc => ?_⟩
    have hmem := (h.mem_iff q).2 (by rw [hq]; rfl)
    rcases List.mem_append.1 hmem with hq' | hq'
    · have hc' : some c ∈ before.map some := by
        rw [← hshorter, ← hq]
        exact List.mem_map_of_mem hq'
      obtain ⟨x, hx, heq⟩ := List.mem_map.1 hc'
      rw [← Option.some.inj heq, hbefore x hx] at hc
      cases hc
    · have hascending := (List.pairwise_append.1 h.ascending).2.1
      rcases List.mem_cons.1 hq' with rfl | hq'
      · exact le_rfl
      · exact (List.pairwise_cons.1 hascending).1 q hq'
  none hnone p a hp := by
    have hmem : some a ∈ walk.map some := by
      rw [h.ends, ← hp]
      exact List.mem_map_of_mem ((h.mem_iff p).2 (by rw [hp]; rfl))
    obtain ⟨x, hx, heq⟩ := List.mem_map.1 hmem
    rw [← Option.some.inj heq]
    exact List.findSome?_eq_none_iff.1 hnone x hx

/-- Nothing is nearer than the start. -/
theorem IsNearest.of_start {start : α} {supply : α → Option β} {found : Option β}
    (h : IsNearest next start supply found) {b : β} (hb : supply start = some b) :
    found = some b := by
  cases hfound : found with
  | none =>
    rw [h.none hfound [] start rfl] at hb
    cases hb
  | some b' =>
    obtain ⟨p, a, hp, ha, hshortest⟩ := h.path b' hfound
    obtain rfl : p = [] := List.length_eq_zero_iff.1
      (Nat.le_zero.1 (hshortest [] start rfl (by rw [hb]; rfl)))
    obtain rfl : start = a := Option.some.inj hp
    exact ha.symm.trans hb

/-! ### Walks from several nodes -/

theorem findSome?_flatMap {γ : Type} (f : α → List γ) (g : γ → Option β) (l : List α) :
    (l.flatMap f).findSome? g = l.findSome? fun a => (f a).findSome? g := by
  induction l with
  | nil => rfl
  | cons a l ih =>
    rw [List.flatMap_cons, List.findSome?_append, List.findSome?_cons, ih]
    cases (f a).findSome? g <;> rfl

/-- What comes first, row by row, comes first in its column. -/
theorem exists_column {ι κ : Type} {f : ι → κ → Option β} {rows : List ι} {columns : List κ} {b : β}
    (h : rows.findSome? (fun i => columns.findSome? (f i)) = some b) :
    ∃ k ∈ columns, rows.findSome? (f · k) = some b := by
  obtain ⟨before, i, after, rfl, hi, hbefore⟩ := List.findSome?_eq_some_iff.1 h
  obtain ⟨k, hk, hb⟩ := List.exists_of_findSome?_eq_some hi
  exact ⟨k, hk, List.findSome?_eq_some_iff.2
    ⟨before, i, after, rfl, hb, fun j hj => List.findSome?_eq_none_iff.1 (hbefore j hj) k hk⟩⟩

section Several

variable {level : List α} {f : α → Option β} {b : β}

theorem mem_levelsFrom_iff {x : α} :
    x ∈ levelsFrom next n level ↔ ∃ a ∈ level, x ∈ levelsFrom next n [a] := by
  simp only [levelsFrom_eq, List.mem_flatMap, List.mem_singleton]
  constructor
  · rintro ⟨d, hd, a, ha, hx⟩
    exact ⟨a, ha, d, hd, a, rfl, hx⟩
  · rintro ⟨a, ha, d, hd, _, rfl, hx⟩
    exact ⟨d, hd, _, ha, hx⟩

/-- What a walk comes by first, it comes by first on the walk from one of the nodes it starts
from. -/
theorem exists_first_levelsFrom (h : (levelsFrom next n level).findSome? f = some b) :
    ∃ a ∈ level, (levelsFrom next n [a]).findSome? f = some b := by
  simp only [levelsFrom_eq, findSome?_flatMap, List.findSome?_singleton] at h ⊢
  exact exists_column h

/-- What a walk comes by last, it comes by last on the walk from one of the nodes it starts from. -/
theorem exists_last_levelsFrom (h : (levelsFrom next n level).reverse.findSome? f = some b) :
    ∃ a ∈ level, (levelsFrom next n [a]).reverse.findSome? f = some b := by
  simp only [levelsFrom_eq, List.reverse_flatMap, Function.comp_def, findSome?_flatMap,
    List.reverse_singleton, List.findSome?_singleton] at h ⊢
  obtain ⟨a, ha, hb⟩ := exists_column h
  exact ⟨a, List.mem_reverse.1 ha, hb⟩

end Several

end ScriptSurface
