import ScriptSurface.Proofs.Mapping.Bindings

/-!
# The recursion that mappings satisfy

What a variable stands for in the terms of a class can be said without tables.  It is the argument
that the class's own declared supertypes give for the variable (`HostTypes.ownArgument?`): that of
the last interface that gives one, and if none does that of the superclass.  Where there is no such
argument, it is what the variable stands for in the terms of the superclass, or else of the last
interface in whose terms it stands for something, with the own arguments put in.  This is
`Mapping.IsRecursive`.

The direct bindings of a class are its own arguments (`Mapping.find?_direct`), provided that classes
have no more type parameters than there are positions.  So in an acyclic hierarchy the mappings
satisfy the recursion (`Mapping.isRecursive_of`), and they are the only ones to do so
(`Mapping.IsRecursive.find?_of`).
-/

namespace ScriptSurface

/-! ### The arguments a class gives -/

namespace HostTypes

variable (h : HostTypes)

/-- The argument that a declared supertype gives for a type variable of its class.  Arguments beyond
the declared parameters do not count. -/
def argumentFor? (v : TypeVar) : TypeExpr → Option TypeExpr
  | .applied raw args _ =>
    if raw = v.owner ∧ v.index.toNat < (h.typeParams raw).length then args[v.index.toNat]?
    else none
  | _ => none

/-- The argument that the declared supertypes of a class give for a type variable.  A later
interface wins over an earlier one, and any interface over the superclass. -/
def ownArgument? (c : ClassId) (v : TypeVar) : Option TypeExpr :=
  ((h.genericInterfaces c).reverse.findSome? (h.argumentFor? v)).or
    ((h.genericSuperclass c).bind (h.argumentFor? v))

/-- Whether every type parameter has a position of its own. -/
def HasPositions : Prop := ∀ c, (h.typeParams c).length ≤ UInt16.size

end HostTypes

namespace Mapping

variable {h : HostTypes} {limit : ℕ} {c : ClassId} {v : TypeVar} {e t : TypeExpr}

theorem mem_bindingsOf_iff
    (hpos : ∀ raw ∈ e.rawClass?, (h.typeParams raw).length ≤ UInt16.size) :
    (v, t) ∈ bindingsOf h e ↔ h.argumentFor? v e = some t := by
  cases e with
  | applied raw args s =>
    unfold bindingsOf HostTypes.argumentFor?
    rw [List.mem_map]
    constructor
    · rintro ⟨⟨arg, i⟩, hi, heq⟩
      obtain ⟨rfl, rfl⟩ := Prod.mk.inj heq
      rw [List.mem_zipIdx_iff_getElem?, List.getElem?_take] at hi
      split_ifs at hi with hlt
      have hindex : (UInt16.ofNat i).toNat = i :=
        UInt16.toNat_ofNat_of_lt' (lt_of_lt_of_le hlt (hpos raw rfl))
      show (if raw = raw ∧ (UInt16.ofNat i).toNat < _ then args[(UInt16.ofNat i).toNat]? else none)
        = _
      rw [hindex, if_pos ⟨rfl, hlt⟩]
      exact hi
    · intro ht
      dsimp only at ht
      split_ifs at ht with hv
      obtain ⟨rfl, hlt⟩ := hv
      refine ⟨(t, v.index.toNat), ?_, ?_⟩
      · rw [List.mem_zipIdx_iff_getElem?, List.getElem?_take, if_pos hlt]
        exact ht
      · show (TypeVar.mk v.owner (UInt16.ofNat v.index.toNat), t) = (v, t)
        rw [UInt16.ofNat_toNat]
  | _ => simp [bindingsOf, HostTypes.argumentFor?]

/-- A declared supertype binds a variable to the argument it gives for it. -/
theorem find?_reverse_bindingsOf
    (hpos : ∀ raw ∈ e.rawClass?, (h.typeParams raw).length ≤ UInt16.size) (v : TypeVar) :
    ((bindingsOf h e).reverse.find? fun b => b.1 = v).map Prod.snd = h.argumentFor? v e := by
  cases hfind : (bindingsOf h e).reverse.find? fun b => b.1 = v with
  | some b =>
    have hmem : b ∈ bindingsOf h e := List.mem_reverse.1 (List.mem_of_find?_eq_some hfind)
    have hb : b.1 = v := by simpa using List.find?_some hfind
    exact ((mem_bindingsOf_iff hpos).1 (hb ▸ hmem)).symm
  | none =>
    symm
    by_contra hsome
    obtain ⟨t, ht⟩ := Option.ne_none_iff_exists'.1 hsome
    have hmem : (v, t) ∈ bindingsOf h e := (mem_bindingsOf_iff hpos).2 ht
    have hne := List.find?_eq_none.1 hfind (v, t) (List.mem_reverse.2 hmem)
    simp at hne

/-- The direct bindings of a class are the arguments that its own declared supertypes give. -/
theorem find?_direct (hpos : h.HasPositions) (c : ClassId) (v : TypeVar) :
    (direct h c).find? v = h.ownArgument? c v := by
  have hone : (fun e => ((bindingsOf h e).reverse.find? fun b => b.1 = v).map Prod.snd)
      = h.argumentFor? v :=
    funext fun e => find?_reverse_bindingsOf (fun raw _ => hpos raw) v
  have hflat : (direct h c).find? v
      = (h.declaredSupertypes c).reverse.findSome? (h.argumentFor? v) := by
    rw [direct_eq, Assoc.find?_ofList, List.reverse_flatMap, List.find?_flatMap,
      List.map_findSome?, ← hone]
    rfl
  rw [hflat, HostTypes.declaredSupertypes, List.reverse_append, List.findSome?_append,
    HostTypes.ownArgument?]
  congr 1
  cases h.genericSuperclass c with
  | none => rfl
  | some e =>
    rw [Option.toList_some, List.reverse_singleton, List.findSome?_singleton]
    rfl

/-! ### The recursion -/

/-- Whether it is what variables stand for in the terms of each class: nothing in the terms of
classes that cannot be generic, and in the terms of any other class the argument its own declared
supertypes give, or what it is in the terms of the superclass, or else of the last interface. -/
structure IsRecursive (h : HostTypes) (limit : ℕ) (β : ClassId → Bindings) : Prop where
  /-- Classes that cannot be generic bind nothing. -/
  trivial : ∀ c, isTrivial h c = true → ∀ v, β c v = none
  /-- Own arguments win, then comes the superclass and then the interfaces, the last one first. -/
  step : ∀ c, isTrivial h c = false → ∀ v,
    β c v = (h.ownArgument? c v).or
      ((((h.superclass c).bind fun p => β p v).or
        ((h.interfaces c).reverse.findSome? fun p => β p v)).map fun target =>
          target.substitute (h.ownArgument? c) limit)

/-- Mappings satisfy the recursion. -/
theorem isRecursive_of (hac : h.Acyclic) (hpos : h.HasPositions) (limit : ℕ) :
    IsRecursive h limit fun c => (of h limit c).find? where
  trivial c hc v := find?_of_trivial hac limit hc v
  step c hc v := by
    have hdirect : (direct h c).find? = h.ownArgument? c := funext (find?_direct hpos c)
    rw [find?_of hac limit hc, hdirect, HostTypes.supertypes, List.reverse_append,
      List.findSome?_append]
    cases h.superclass c with
    | none => rfl
    | some p =>
      rw [Option.toList_some, List.reverse_singleton, List.findSome?_singleton]
      rfl

/-- Nothing else satisfies the recursion. -/
theorem IsRecursive.find?_of {β : ClassId → Bindings} (hβ : IsRecursive h limit β)
    (hac : h.Acyclic) (hpos : h.HasPositions) (c : ClassId) (v : TypeVar) :
    (of h limit c).find? v = β c v := by
  have hof := isRecursive_of hac hpos limit
  obtain ⟨rank, hrank⟩ := hac.exists_rank
  induction hn : rank c using Nat.strong_induction_on generalizing c with
  | _ n ih =>
    have hparent : ∀ p ∈ h.supertypes c, (of h limit p).find? v = β p v := by
      intro p hp
      have hlt : rank p < n := hn ▸ (hrank c).2 p hp
      exact ih (rank p) hlt p rfl
    cases hc : isTrivial h c with
    | true => rw [hof.trivial c hc, hβ.trivial c hc]
    | false =>
      have hsuper : ((h.superclass c).bind fun p => (of h limit p).find? v)
          = (h.superclass c).bind fun p => β p v := by
        cases hp : h.superclass c with
        | none => rfl
        | some p => exact hparent p (by simp [HostTypes.supertypes, hp])
      have hinterfaces : ((h.interfaces c).reverse.findSome? fun p => (of h limit p).find? v)
          = (h.interfaces c).reverse.findSome? fun p => β p v := by
        have hmem : ∀ p ∈ (h.interfaces c).reverse, (of h limit p).find? v = β p v := fun p hp =>
          hparent p (List.mem_append_left _ (List.mem_reverse.1 hp))
        generalize (h.interfaces c).reverse = l at hmem
        induction l with
        | nil => rfl
        | cons p l ihl =>
          rw [List.findSome?_cons, List.findSome?_cons, hmem p List.mem_cons_self,
            ihl fun p hp => hmem p (List.mem_cons_of_mem _ hp)]
      rw [hof.step c hc, hβ.step c hc, hsuper, hinterfaces]

/-! ### Empty mappings -/

/-- A mapping that binds nothing is the shared one. -/
theorem of_eq_shared (hac : h.Acyclic) (hnone : ∀ v, (of h limit c).find? v = none) :
    of h limit c = shared := by
  have hof := of_eq hac limit c
  split_ifs at hof
  · exact hof
  · rw [hof] at hnone ⊢
    generalize compose (direct h c) limit ((h.supertypes c).map (of h limit)) = t at hnone ⊢
    simp only [find?_share, find?_ofTable] at hnone
    have hnil : t.toList = [] := by
      rw [List.eq_nil_iff_forall_not_mem]
      rintro ⟨v, target⟩ hmem
      rw [Assoc.mem_toList_iff, hnone] at hmem
      cases hmem
    unfold ofTable
    rw [hnil]
    rfl

end Mapping

end ScriptSurface
