import ScriptSurface.Proofs.Assoc
import ScriptSurface.Proofs.Supertypes

/-!
# What a mapping binds

`Mapping.of h limit c` is the mapping of a class worked out afresh.  In an acyclic hierarchy it is
composed of the direct bindings of the class and of the mappings of its supertypes, which is the
recursion `Mapping.of_eq`; and `Mapping.find?_of` says what a variable comes to stand for in it: the
direct target if there is one, and else the target in the mapping of the last supertype that has
one, the superclass being last, with the direct bindings applied.
-/

namespace ScriptSurface

namespace Mapping

/-! ### Storage -/

@[simp] theorem find?_ofTable (t : Assoc TypeVar TypeExpr) (v : TypeVar) :
    (ofTable t).find? v = t.find? v := by
  rw [ofTable]
  split
  · next hnil => simp [find?, Assoc.find?, hnil, Assoc.valueIn?]
  · next w target hone => simp [find?, Assoc.find?, hone, Assoc.valueIn?]
  · rfl

@[simp] theorem find?_share (m : Mapping) (v : TypeVar) : m.share.find? v = m.find? v := by
  cases m <;> rfl

@[simp] theorem find?_shared (v : TypeVar) : shared.find? v = none := rfl

theorem nodup_toList (m : Mapping) : (m.toList.map Prod.fst).Nodup := by
  cases m with
  | empty _ => exact List.nodup_nil
  | single v target => exact List.nodup_singleton v
  | many t => exact t.nodup_keys

theorem valueIn?_toList (m : Mapping) (v : TypeVar) :
    Assoc.valueIn? v m.toList = m.find? v := by
  cases m <;> rfl

theorem mem_toList_iff (m : Mapping) {v : TypeVar} {target : TypeExpr} :
    (v, target) ∈ m.toList ↔ m.find? v = some target := by
  rw [← valueIn?_toList]
  exact Assoc.mem_iff_valueIn?_eq m.nodup_toList

/-! ### Direct bindings -/

variable {h : HostTypes} {c : ClassId} {v : TypeVar} {target : TypeExpr}

/-- The bindings that a declared supertype gives. -/
def bindingsOf (h : HostTypes) : TypeExpr → List (TypeVar × TypeExpr)
  | .applied raw args _ =>
    (args.take (h.typeParams raw).length).zipIdx.map fun (arg, i) => (.at raw i, arg)
  | _ => []

theorem addDirect_eq (h : HostTypes) (t : Assoc TypeVar TypeExpr) (e : TypeExpr) :
    addDirect h t e = (bindingsOf h e).foldl (fun t b => t.put b.1 b.2) t := by
  cases e with
  | applied raw args s => simp [addDirect, bindingsOf, List.foldl_map]
  | _ => rfl

theorem direct_eq (h : HostTypes) (c : ClassId) :
    direct h c = .ofList ((h.declaredSupertypes c).flatMap (bindingsOf h)) := by
  rw [direct, Assoc.ofList, List.foldl_flatMap]
  congr 1
  funext t e
  exact addDirect_eq h t e

/-- A direct target is an argument of a declared supertype whose class declares the variable. -/
theorem exists_applied_of_find?_direct (hv : (direct h c).find? v = some target) :
    ∃ raw args s, .applied raw args s ∈ h.declaredSupertypes c ∧ h.Declares raw v ∧
      target ∈ args := by
  rw [direct_eq] at hv
  obtain ⟨e, he, hb⟩ := List.mem_flatMap.1 (Assoc.mem_of_find?_ofList hv)
  cases e with
  | applied raw args s =>
    obtain ⟨⟨arg, i⟩, hi, heq⟩ := List.mem_map.1 hb
    obtain ⟨rfl, rfl⟩ := Prod.mk.inj heq
    obtain ⟨hlt, harg⟩ := List.mem_zipIdx' hi
    refine ⟨raw, args, s, he, ⟨rfl, ?_⟩, ?_⟩
    · -- positions count modulo 2¹⁶, which leaves them where parameters are
      have hmod : (UInt16.ofNat i).toNat ≤ i := by
        rw [UInt16.toNat_ofNat']
        exact Nat.mod_le _ _
      rw [List.length_take] at hlt
      show (UInt16.ofNat i).toNat < _
      omega
    · rw [harg]
      exact List.mem_of_mem_take (List.getElem_mem _)
  | _ => simp [bindingsOf] at hb

/-- A declared supertype with an argument for each parameter binds what its class declares. -/
theorem isSome_find?_direct {raw : ClassId} {args : List TypeExpr} {s : Stamp}
    (he : .applied raw args s ∈ h.declaredSupertypes c)
    (hargs : args.length = (h.typeParams raw).length) (hv : h.Declares raw v) :
    ((direct h c).find? v).isSome := by
  obtain ⟨hraw, hindex⟩ := hv
  have hlt : v.index.toNat < args.length := hargs ▸ hindex
  have hat : TypeVar.at raw v.index.toNat = v := by
    cases v with
    | mk owner index =>
      subst hraw
      rw [TypeVar.at, UInt16.ofNat_toNat]
  rw [direct_eq]
  refine Assoc.isSome_find?_ofList (v := args[v.index.toNat])
    (List.mem_flatMap.2 ⟨_, he, List.mem_map.2 ⟨(args[v.index.toNat], v.index.toNat), ?_, ?_⟩⟩)
  · rw [← hargs, List.take_length, List.mem_zipIdx_iff_getElem?]
    exact List.getElem?_eq_getElem hlt
  · show (TypeVar.at raw v.index.toNat, _) = _
    rw [hat]

/-! ### Composition -/

theorem find?_addInherited (direct : Assoc TypeVar TypeExpr) (limit : ℕ)
    (t : Assoc TypeVar TypeExpr) (inherited : Mapping) (v : TypeVar) :
    (addInherited direct limit t inherited).find? v
      = ((inherited.find? v).map fun target => target.substitute direct.find? limit).or
          (t.find? v) := by
  rw [← valueIn?_toList]
  exact Assoc.find?_foldl_alter (fun target _ => target.substitute direct.find? limit)
    inherited.nodup_toList t v

/-- Direct bindings win, and among the supertypes' mappings the last one. -/
theorem find?_compose (direct : Assoc TypeVar TypeExpr) (limit : ℕ) (inherited : List Mapping)
    (v : TypeVar) :
    (compose direct limit inherited).find? v
      = (direct.find? v).or ((inherited.reverse.findSome? fun m => m.find? v).map fun target =>
          target.substitute direct.find? limit) := by
  -- a pass over the supertypes' mappings, from any table
  have hinherited : ∀ t : Assoc TypeVar TypeExpr,
      (inherited.foldl (addInherited direct limit) t).find? v
        = ((inherited.reverse.findSome? fun m => m.find? v).map fun target =>
            target.substitute direct.find? limit).or (t.find? v) := by
    induction inherited with
    | nil => intro t; rfl
    | cons m inherited ih =>
      intro t
      rw [List.foldl_cons, ih, find?_addInherited, List.reverse_cons, List.findSome?_append]
      cases inherited.reverse.findSome? fun m => m.find? v with
      | some _ => rfl
      | none => cases hm : m.find? v <;> simp [hm]
  have hdirect := Assoc.find?_foldl_alter (fun (target : TypeExpr) _ => target) direct.nodup_keys
    (inherited.foldl (addInherited direct limit) ∅) v
  rw [hinherited, Assoc.find?_empty, Option.or_none] at hdirect
  rw [compose]
  refine hdirect.trans ?_
  rw [Option.map_id']
  rfl

/-! ### The mapping of a class -/

/-- The mapping of a class, worked out afresh through at most so many generations. -/
def within (h : HostTypes) (limit : ℕ) : ℕ → ClassId → Mapping
  | 0, _ => shared
  | n + 1, c =>
    if isTrivial h c then shared
    else (ofTable (compose (direct h c) limit ((h.supertypes c).map (within h limit n)))).share

/-- The mapping of a class, worked out afresh. -/
def of (h : HostTypes) (limit : ℕ) (c : ClassId) : Mapping := within h limit ClassId.count c

/-- Generations beyond the rank of a class make no difference. -/
theorem within_eq {rank : ClassId → ℕ} (hrank : ∀ c, ∀ p ∈ h.supertypes c, rank p < rank c)
    (limit : ℕ) {m n : ℕ} (hm : rank c < m) (hn : rank c < n) :
    within h limit m c = within h limit n c := by
  induction m generalizing n c with
  | zero => omega
  | succ m ih =>
    obtain ⟨n, rfl⟩ := Nat.exists_eq_succ_of_ne_zero (by omega : n ≠ 0)
    have hmap : (h.supertypes c).map (within h limit m)
        = (h.supertypes c).map (within h limit n) := by
      refine List.map_congr_left fun p hp => ?_
      have := hrank c p hp
      exact ih (by omega) (by omega)
    rw [within, within, hmap]

/-- In an acyclic hierarchy, mappings are composed of those of the supertypes. -/
theorem of_eq (hac : h.Acyclic) (limit : ℕ) (c : ClassId) :
    of h limit c
      = if isTrivial h c then shared
        else (ofTable (compose (direct h c) limit ((h.supertypes c).map (of h limit)))).share := by
  obtain ⟨rank, hrank⟩ := hac.exists_rank
  have hlt : rank c < ClassId.count + 1 := Nat.lt_succ_of_lt (hrank c).1
  rw [of, within_eq (fun c => (hrank c).2) limit (hrank c).1 hlt, within]
  rfl

theorem find?_of_trivial (hac : h.Acyclic) (limit : ℕ) (hc : isTrivial h c = true) (v : TypeVar) :
    (of h limit c).find? v = none := by
  rw [of_eq hac, if_pos hc, find?_shared]

theorem find?_of (hac : h.Acyclic) (limit : ℕ) (hc : isTrivial h c = false) (v : TypeVar) :
    (of h limit c).find? v
      = ((direct h c).find? v).or
          (((h.supertypes c).reverse.findSome? fun p => (of h limit p).find? v).map fun target =>
            target.substitute (direct h c).find? limit) := by
  rw [of_eq hac, if_neg (by simp [hc]), find?_share, find?_ofTable, find?_compose,
    ← List.map_reverse, List.findSome?_map]
  rfl

end Mapping

end ScriptSurface
