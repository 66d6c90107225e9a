import Mathlib.Data.List.Nodup

/-!
# Paths

A path from a node is told link by link, each link by its position among the successors of the node
it goes on from.  Two links to the same node make two paths.  `endOf?` says where a path leads, and
`pathsOf` lists the paths with a given number of links, each of them once.
-/

namespace ScriptSurface

variable {α : Type} {next : α → List α}

/-- The node that a path from a node leads to. -/
def endOf? (next : α → List α) : List ℕ → α → Option α
  | [], a => some a
  | i :: path, a => (next a)[i]?.bind (endOf? next path)

/-- The paths from a node with so many links, in the order of the positions of their links. -/
def pathsOf (next : α → List α) : ℕ → α → List (List ℕ)
  | 0, _ => [[]]
  | n + 1, a => (next a).zipIdx.flatMap fun (b, i) => (pathsOf next n b).map (i :: ·)

theorem endOf?_cons {a b : α} {i : ℕ} (h : (next a)[i]? = some b) (path : List ℕ) :
    endOf? next (i :: path) a = endOf? next path b := by
  rw [endOf?, h, Option.bind_some]

theorem exists_of_endOf?_cons {a c : α} {i : ℕ} {path : List ℕ}
    (h : endOf? next (i :: path) a = some c) :
    ∃ b, (next a)[i]? = some b ∧ endOf? next path b = some c :=
  Option.bind_eq_some_iff.1 h

theorem mem_pathsOf_iff {n : ℕ} {a : α} {path : List ℕ} :
    path ∈ pathsOf next n a ↔ path.length = n ∧ (endOf? next path a).isSome = true := by
  induction n generalizing a path with
  | zero =>
    rw [pathsOf, List.mem_singleton, List.length_eq_zero_iff]
    exact ⟨fun h => ⟨h, h ▸ rfl⟩, And.left⟩
  | succ n ih =>
    simp only [pathsOf, List.mem_flatMap, List.mem_map, Prod.exists, List.mem_zipIdx_iff_getElem?,
      ih]
    constructor
    · rintro ⟨b, i, hb, rest, ⟨hlength, hend⟩, rfl⟩
      exact ⟨by rw [List.length_cons, hlength], by rwa [endOf?_cons hb]⟩
    · rintro ⟨hlength, hend⟩
      obtain ⟨i, rest, rfl⟩ := List.exists_cons_of_length_eq_add_one hlength
      obtain ⟨c, hc⟩ := Option.isSome_iff_exists.1 hend
      obtain ⟨b, hb, hrest⟩ := exists_of_endOf?_cons hc
      exact ⟨b, i, hb, rest, ⟨by simpa using hlength, by rw [hrest]; rfl⟩, rfl⟩

theorem nodup_pathsOf (n : ℕ) (a : α) : (pathsOf next n a).Nodup := by
  induction n generalizing a with
  | zero => exact List.nodup_singleton _
  | succ n ih =>
    rw [pathsOf, List.nodup_flatMap]
    refine ⟨fun x _ => (ih x.1).map List.cons_injective, ?_⟩
    -- paths that go on to different places among the successors differ in their first link
    have hlinks : (next a).zipIdx.Pairwise fun x y => x.2 ≠ y.2 := by
      rw [← List.pairwise_map (f := Prod.snd) (R := (· ≠ ·)), List.zipIdx_map_snd]
      exact List.nodup_range'
    refine hlinks.imp fun {x y} hne path hx hy => ?_
    obtain ⟨_, _, rfl⟩ := List.mem_map.1 hx
    obtain ⟨_, _, heq⟩ := List.mem_map.1 hy
    exact hne (List.cons.inj heq).1.symm

end ScriptSurface
