import ScriptSurface.Proofs.Computation
import ScriptSurface.Proofs.Supertypes
import ScriptSurface.Registry.Draft

/-!
# Erasures and commits

Erasing a type changes a registry only by adding array classes (`Registry.AddsArrays`), and what a
plain or applied type erases to is its class.  So a commit adds array classes and then registers one
class whose supertypes are the declared ones: `Draft.exists_commit_eq`.
-/

namespace ScriptSurface

/-! ### Erasing -/

namespace Registry

/-- One registry comes from another by asking for array classes. -/
def AddsArrays : Registry → Registry → Prop :=
  Relation.ReflTransGen fun r r' => ∃ c, r' = (arrayOf c r).2

theorem ensures_arrayOf (r₀ : Registry) (c : ClassId) :
    Ensures (AddsArrays r₀) (arrayOf c) fun _ r => AddsArrays r₀ r :=
  fun _ hr => hr.tail ⟨c, rfl⟩

variable {r₀ : Registry}

theorem ensures_eraseWith {ofVar : TypeVar → StateM Registry ClassId}
    (hvar : ∀ v, Ensures (AddsArrays r₀) (ofVar v) fun _ r => AddsArrays r₀ r) (t : TypeExpr) :
    Ensures (AddsArrays r₀) (t.eraseWith arrayOf ofVar) fun _ r => AddsArrays r₀ r := by
  induction t using TypeExpr.induct with
  | unknown => exact .pure fun _ hr => hr
  | plain c s => exact .pure fun _ hr => hr
  | array t s ih => exact .bind ih fun c => ensures_arrayOf r₀ c
  | applied raw ts s _ => exact .pure fun _ hr => hr
  | var v s => exact hvar v

theorem ensures_eraseVar (boundOf : TypeVar → Option TypeExpr) (n : ℕ) :
    ∀ v, Ensures (AddsArrays r₀) (TypeExpr.eraseVar arrayOf boundOf n v)
      fun _ r => AddsArrays r₀ r := by
  induction n with
  | zero => exact fun v => .pure fun _ hr => hr
  | succ n ih =>
    intro v
    rw [TypeExpr.eraseVar]
    cases boundOf v with
    | none => exact .pure fun _ hr => hr
    | some bound => exact ensures_eraseWith ih bound

theorem ensures_erase (r₀ : Registry) (t : TypeExpr) :
    Ensures (AddsArrays r₀) (erase t) fun _ r => AddsArrays r₀ r :=
  fun r hr => ensures_eraseWith (ensures_eraseVar r.types.boundOf TypeVar.count) t r hr

end Registry

namespace Draft

open Registry (AddsArrays)

variable {r₀ : Registry} (d : Draft)

theorem ensures_eraseVar (n : ℕ) :
    ∀ v, Ensures (AddsArrays r₀) (d.eraseVar n v) fun _ r => AddsArrays r₀ r := by
  induction n with
  | zero => exact fun v => .pure fun _ hr => hr
  | succ n ih =>
    intro v
    rw [eraseVar]
    -- the draft's own bounds first, the registry for the variables of others
    split_ifs
    · cases d.typeParams[v.index.toNat]? with
      | none => exact .pure fun _ hr => hr
      | some p => exact Registry.ensures_eraseWith ih p.bound
    · exact Registry.ensures_erase r₀ _

/-- A declared type erases to the class it stands for. -/
theorem ensures_erase (t : TypeExpr) :
    Ensures (AddsArrays r₀) (d.erase t) fun c r => t.StandsFor c ∧ AddsArrays r₀ r := by
  intro r hr
  refine ⟨fun p hp => ?_, Registry.ensures_eraseWith (d.ensures_eraseVar _) t r hr⟩
  cases t with
  | plain c s => exact (Option.some.inj hp).symm
  | applied raw ts s => exact (Option.some.inj hp).symm
  | _ => cases hp

theorem ensures_finishField (f : FieldDecl) :
    Ensures (AddsArrays r₀) (d.finishField f) fun _ r => True ∧ AddsArrays r₀ r :=
  .bind (d.ensures_erase f.genericType) fun _ => .pure fun _ hr => ⟨trivial, hr.2⟩

theorem ensures_finishExecutable (e : Executable) :
    Ensures (AddsArrays r₀) (d.finishExecutable e) fun _ r => True ∧ AddsArrays r₀ r := by
  refine .bind (.mapM d.ensures_erase e.genericParams) fun params => .of_and fun _ => ?_
  dsimp only
  split_ifs
  · exact .pure fun _ hr => ⟨trivial, hr⟩
  · exact .bind (d.ensures_erase e.genericReturn) fun _ => .pure fun _ hr => ⟨trivial, hr.2⟩

/-- The superclass of the declared class is what the superclass as declared stands for. -/
theorem ensures_eraseSuperclass :
    Ensures (AddsArrays r₀) d.eraseSuperclass fun superclass r =>
      List.Forall₂ TypeExpr.StandsFor
        (d.superclass <|> superclass.map (TypeExpr.ofClass .anonymous)).toList superclass.toList ∧
      AddsArrays r₀ r := by
  rw [eraseSuperclass]
  cases d.superclass with
  | none =>
    refine .pure fun r hr => ⟨?_, hr⟩
    split_ifs
    · exact .cons (TypeExpr.standsFor_ofClass _ _) .nil
    · exact .nil
  | some t => exact .bind (d.ensures_erase t) fun c => .pure fun _ hr => ⟨.cons hr.1 .nil, hr.2⟩

end Draft

/-- The supertypes of an entry are the declared ones. -/
structure ClassEntry.NamesSupertypes (e : ClassEntry) : Prop where
  /-- The superclass is the one declared. -/
  superclass : List.Forall₂ TypeExpr.StandsFor e.genericSuperclass.toList e.superclass.toList
  /-- The interfaces are those declared. -/
  interfaces : List.Forall₂ TypeExpr.StandsFor e.genericInterfaces e.interfaces

theorem ClassEntry.namesSupertypes_bare (name : String) (kind : Kind)
    (superclass : Option ClassId) : (bare name kind superclass).NamesSupertypes where
  superclass := by
    cases superclass with
    | none => exact .nil
    | some c => exact .cons (TypeExpr.standsFor_ofClass _ _) .nil
  interfaces := .nil

/-- A commit adds array classes and then registers the declared class under the draft's id. -/
theorem Draft.exists_commit_eq (d : Draft) (r : Registry) :
    ∃ r' e, r.AddsArrays r' ∧ d.commit r = (d.id, r'.register d.id e) ∧ e.kind = d.kind ∧
      e.typeParams = d.typeParams ∧ e.NamesSupertypes := by
  have hcommit : Ensures r.AddsArrays d.commit fun id r'' =>
      ∃ r' e, r.AddsArrays r' ∧ (id, r'') = (d.id, r'.register d.id e) ∧ e.kind = d.kind ∧
        e.typeParams = d.typeParams ∧ e.NamesSupertypes := by
    refine .bind d.ensures_eraseSuperclass fun superclass => .of_and fun hsuperclass => ?_
    refine .bind (.mapM d.ensures_erase d.interfaces) fun interfaces => .of_and fun hifaces => ?_
    -- the members may ask for more array classes and say nothing about supertypes
    refine .bind (.mapM d.ensures_finishField d.fields) fun fields => .of_and fun _ => ?_
    refine .bind (.mapM d.ensures_finishExecutable d.methods) fun methods => .of_and fun _ => ?_
    refine .bind (.mapM d.ensures_finishExecutable d.constructors) fun ctors => .of_and fun _ => ?_
    exact fun r' hr' => ⟨r', _, hr', rfl, rfl, rfl, ⟨hsuperclass, hifaces⟩⟩
  exact hcommit r .refl

end ScriptSurface
