import ScriptSurface.Member.Discovery
import ScriptSurface.Proofs.Order

/-!
# The order in which a host reports declarations

`HostTypes.Reorders` relates two hosts that report the same, but the fields and methods of each
class in any order.  Sorted discovery goes through fields by raw name, and through methods by raw
name and parameters.  Where these tell the declarations of a class apart
(`HostTypes.DeclaresOnce`), there is one way only to sort them, so the two hosts have the same own
members: `Environment.ownMembers_eq_of_reorders`.
-/

namespace ScriptSurface

open Std (TransCmp LawfulEqCmp)

/-! ### Hosts -/

/-- The two hosts report the same, but the fields and methods of each class in any order. -/
structure HostTypes.Reorders (h h' : HostTypes) : Prop where
  /-- All but fields and methods is the same. -/
  rest : h' = { h with fields := h'.fields, methods := h'.methods }
  /-- The fields of a class are the same in another order. -/
  fields : ∀ c, (h.fields c).Perm (h'.fields c)
  /-- The methods of a class are the same in another order. -/
  methods : ∀ c, (h.methods c).Perm (h'.methods c)

/-- No class declares two fields of one raw name, or two methods of one raw name with the same
parameters. -/
structure HostTypes.DeclaresOnce (h : HostTypes) : Prop where
  /-- Fields are told apart by their raw names. -/
  fields : ∀ c, ((h.fields c).map FieldDecl.name).Nodup
  /-- Methods are told apart by their raw names and parameters. -/
  methods : ∀ c, ((h.methods c).map fun m => (m.name, m.params)).Nodup

namespace Environment

/-! ### Sorted discovery -/

instance : TransCmp methodOrder :=
  have : TransCmp fun a b : Executable => Order.texts a.name b.name :=
    Order.transCmp_pullback Executable.name
  have : TransCmp fun a b : Executable => Order.lists ClassId.order a.params b.params :=
    Order.transCmp_pullback Executable.params
  inferInstanceAs (TransCmp (compareLex (fun a b : Executable => Order.texts a.name b.name)
    fun a b => Order.lists ClassId.order a.params b.params))

/-- Methods compare as equal only if they have the same raw name and parameters. -/
theorem eq_of_methodOrder {a b : Executable} (h : methodOrder a b = .eq) :
    (a.name, a.params) = (b.name, b.params) := by
  obtain ⟨hname, hparams⟩ := Ordering.then_eq_eq.1 h
  rw [LawfulEqCmp.eq_of_compare hname, LawfulEqCmp.eq_of_compare hparams]

variable {env : Environment} {types : HostTypes}

instance : TransCmp fun a b : FieldDecl => Order.texts a.name b.name :=
  Order.transCmp_pullback FieldDecl.name

/-- Sorted discovery comes to the same as putting in each field and method where it belongs. -/
theorem ownMembers_eq_insertionSort (hsorted : env.options.discoveryOrder = .sortedByName)
    (c : ClassId) : env.ownMembers c =
      if env.isWithheld c then ∅
      else
        (((env.types.methods c).filter env.isEligibleMethod).insertionSort
          fun a b => (methodOrder a b).isLE).foldl (env.addMethod c)
            ((((env.types.fields c).filter env.isEligibleField).insertionSort
              fun a b => (Order.texts a.name b.name).isLE).foldl (env.addField c) ∅) := by
  rw [← Order.sort_eq_insertionSort, ← Order.sort_eq_insertionSort]
  unfold ownMembers eligibleFields eligibleMethods
  rw [hsorted]
  rfl

theorem eligibleFields_eq_of_reorders (hsorted : env.options.discoveryOrder = .sortedByName)
    (hreorders : env.types.Reorders types) (honce : env.types.DeclaresOnce) (c : ClassId) :
    { env with types := types }.eligibleFields c = env.eligibleFields c := by
  have hsort := Order.sort_filter_eq_of_perm (fun a b : FieldDecl => Order.texts a.name b.name)
    (fun _ _ => LawfulEqCmp.eq_of_compare) (hreorders.fields c) (honce.fields c)
    env.isEligibleField
  unfold eligibleFields
  rw [hsorted]
  exact hsort.symm

theorem eligibleMethods_eq_of_reorders (hsorted : env.options.discoveryOrder = .sortedByName)
    (hreorders : env.types.Reorders types) (honce : env.types.DeclaresOnce) (c : ClassId) :
    { env with types := types }.eligibleMethods c = env.eligibleMethods c := by
  have hsort := Order.sort_filter_eq_of_perm methodOrder (fun _ _ => eq_of_methodOrder)
    (hreorders.methods c) (honce.methods c) env.isEligibleMethod
  unfold eligibleMethods
  rw [hsorted]
  exact hsort.symm

/-- Sorted discovery finds the same own members in whatever order the host reports. -/
theorem ownMembers_eq_of_reorders (hsorted : env.options.discoveryOrder = .sortedByName)
    (hreorders : env.types.Reorders types) (honce : env.types.DeclaresOnce) (c : ClassId) :
    { env with types := types }.ownMembers c = env.ownMembers c := by
  have hfields := eligibleFields_eq_of_reorders hsorted hreorders honce c
  have hmethods := eligibleMethods_eq_of_reorders hsorted hreorders honce c
  obtain ⟨fields, methods, rfl⟩ : ∃ fields methods,
      types = { env.types with fields := fields, methods := methods } :=
    ⟨_, _, hreorders.rest⟩
  -- names and accessors go by what is the same in both hosts
  unfold ownMembers
  rw [hfields, hmethods]
  rfl

end Environment

end ScriptSurface
