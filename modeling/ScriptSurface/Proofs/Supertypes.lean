import Mathlib.Data.List.Forall2
import ScriptSurface.Mapping
import ScriptSurface.Proofs.Hierarchy
import ScriptSurface.Proofs.TypeExpr.Substitution

/-!
# Declared supertypes

A host reports the supertypes of a class twice: as classes, and as they were declared, with type
arguments.  In a `HostTypes.Regular` host the two go together, and only the universal base type is
above the classes that cannot be generic.  A `HostTypes.WellDeclared` host is one whose classes name
their supertypes in full, each in terms of its own type variables.
-/

namespace ScriptSurface

theorem exists_of_mem_left {α β : Type} {R : α → β → Prop} {l : List α} {m : List β} {a : α}
    (h : List.Forall₂ R l m) (ha : a ∈ l) : ∃ b ∈ m, R a b := by
  induction h with
  | nil => simp at ha
  | cons hab _ ih =>
    rcases List.mem_cons.1 ha with rfl | ha
    · exact ⟨_, List.mem_cons_self, hab⟩
    · obtain ⟨b, hb, hR⟩ := ih ha
      exact ⟨b, List.mem_cons_of_mem _ hb, hR⟩

/-! ### Types that stand for classes -/

/-- A plain or applied type stands for its class. -/
def TypeExpr.StandsFor (t : TypeExpr) (c : ClassId) : Prop := ∀ p, t.rawClass? = some p → p = c

@[simp] theorem TypeExpr.rawClass?_ofClass (s : Stamp) (c : ClassId) :
    (TypeExpr.ofClass s c).rawClass? = some c := by
  unfold ofClass
  split <;> rfl

theorem TypeExpr.standsFor_ofClass (s : Stamp) (c : ClassId) : (ofClass s c).StandsFor c := by
  intro p hp
  rw [rawClass?_ofClass] at hp
  exact (Option.some.inj hp).symm

/-! ### Declarations -/

/-- The supertypes of a class as declared, the superclass first. -/
def HostTypes.declaredSupertypes (h : HostTypes) (c : ClassId) : List TypeExpr :=
  (h.genericSuperclass c).toList ++ h.genericInterfaces c

/-- Whether a class declares a type variable. -/
def HostTypes.Declares (h : HostTypes) (c : ClassId) (v : TypeVar) : Prop :=
  v.owner = c ∧ v.index.toNat < (h.typeParams c).length

/-- Whether a class or a proper ancestor of it declares a type variable. -/
def HostTypes.InScope (h : HostTypes) (c : ClassId) (v : TypeVar) : Prop :=
  ∃ a, (a = c ∨ h.HasAncestor c a) ∧ h.Declares a v

/-- What the types of a host must have in common for their mappings to make sense. -/
structure HostTypes.Regular (h : HostTypes) : Prop where
  /-- The superclass is the one declared. -/
  superclass : ∀ c,
    List.Forall₂ TypeExpr.StandsFor (h.genericSuperclass c).toList (h.superclass c).toList
  /-- The interfaces are those declared. -/
  interfaces : ∀ c, List.Forall₂ TypeExpr.StandsFor (h.genericInterfaces c) (h.interfaces c)
  /-- Only the universal base type is above those with the empty mapping. -/
  eq_object : ∀ c, Mapping.isTrivial h c = true → ∀ p ∈ h.supertypes c, p = ClassId.object
  /-- The universal base type is not generic. -/
  typeParams_object : h.typeParams ClassId.object = []

/-- The type is a class with an argument for each of its type parameters, plain if it has none. -/
def HostTypes.Names (h : HostTypes) (p : ClassId) (e : TypeExpr) : Prop :=
  e.rawClass? = some p ∧ e.args.length = (h.typeParams p).length

/-- Every class names its supertypes in full and in its own terms. -/
structure HostTypes.WellDeclared (h : HostTypes) : Prop where
  /-- A declared supertype names a class. -/
  names : ∀ c, ∀ e ∈ h.declaredSupertypes c, ∃ p, h.Names p e
  /-- What a declared supertype mentions is declared by the class itself. -/
  own : ∀ c, ∀ e ∈ h.declaredSupertypes c, ∀ v ∈ e.vars, h.Declares c v

namespace HostTypes

variable {h : HostTypes} {c p : ClassId} {e : TypeExpr}

/-- What a type named in full declares can be told from its arguments. -/
theorem Names.exists_applied (he : h.Names p e) {v : TypeVar} (hv : h.Declares p v) :
    ∃ args s, e = .applied p args s ∧ args.length = (h.typeParams p).length := by
  obtain ⟨hraw, hargs⟩ := he
  cases e with
  | plain q s =>
    have hlt := hv.2
    rw [← hargs] at hlt
    exact absurd hlt (Nat.not_lt_zero _)
  | applied q args s =>
    obtain rfl : q = p := Option.some.inj hraw
    exact ⟨args, s, rfl, hargs⟩
  | _ => cases hraw

/-- The declared supertypes stand for the supertypes, the superclass first. -/
theorem Regular.forall₂ (hreg : h.Regular) (c : ClassId) :
    List.Forall₂ TypeExpr.StandsFor (h.declaredSupertypes c)
      ((h.superclass c).toList ++ h.interfaces c) :=
  List.rel_append (hreg.superclass c) (hreg.interfaces c)

theorem mem_supertypes_iff :
    p ∈ (h.superclass c).toList ++ h.interfaces c ↔ p ∈ h.supertypes c := by
  rw [supertypes, List.mem_append, List.mem_append, or_comm]

theorem Regular.mem_supertypes (hreg : h.Regular) (he : e ∈ h.declaredSupertypes c)
    (hp : e.rawClass? = some p) : p ∈ h.supertypes c := by
  obtain ⟨q, hq, heq⟩ := exists_of_mem_left (hreg.forall₂ c) he
  rw [heq p hp]
  exact mem_supertypes_iff.1 hq

theorem WellDeclared.exists_names (hdecl : h.WellDeclared) (hreg : h.Regular)
    (hp : p ∈ h.supertypes c) : ∃ e ∈ h.declaredSupertypes c, h.Names p e := by
  obtain ⟨e, he, heq⟩ := exists_of_mem_left (R := flip TypeExpr.StandsFor)
    (List.Forall₂.flip (hreg.forall₂ c)) (mem_supertypes_iff.2 hp)
  obtain ⟨q, hq⟩ := hdecl.names c e he
  obtain rfl := heq q hq.1
  exact ⟨e, he, hq⟩

theorem Regular.superclass_eq (hreg : h.Regular) (he : h.genericSuperclass c = some e)
    (hnames : h.Names p e) : h.superclass c = some p := by
  have hsuper := hreg.superclass c
  rw [he, Option.toList_some] at hsuper
  cases hq : h.superclass c with
  | none =>
    rw [hq] at hsuper
    cases hsuper
  | some q =>
    rw [hq, Option.toList_some, List.forall₂_cons] at hsuper
    rw [hsuper.1 p hnames.1]

/-- Only the universal base type is an ancestor of a class with the empty mapping. -/
theorem Regular.eq_object_of_hasAncestor (hreg : h.Regular) {a : ClassId}
    (hc : Mapping.isTrivial h c = true) (ha : h.HasAncestor c a) : a = ClassId.object := by
  induction ha with
  | single hp => exact hreg.eq_object c hc _ hp
  | tail _ hp ih =>
    subst ih
    exact hreg.eq_object _ (by simp [Mapping.isTrivial]) _ hp

theorem Regular.not_declares_object (hreg : h.Regular) (v : TypeVar) :
    ¬h.Declares ClassId.object v := by
  rintro ⟨-, hv⟩
  rw [hreg.typeParams_object] at hv
  exact Nat.not_lt_zero _ hv

end HostTypes

end ScriptSurface
