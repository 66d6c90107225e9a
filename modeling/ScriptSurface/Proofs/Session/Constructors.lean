import ScriptSurface.Proofs.Member.Constructors
import ScriptSurface.Proofs.Registry.Entries
import ScriptSurface.Proofs.Session.HostCalls

/-!
# The constructors a session answers

Nothing that steers the other members has a part in constructors.  What a session answers for a
class are the constructors that the class declares itself, found by exactly their signatures
(`Session.constructorsOf_areDeclared`).

All array types share one descriptor, and with it the constructors; array classes that come from a
registry declare none (`Registration.Reachable.constructors_of_isArray`).
-/

namespace ScriptSurface

open Descriptor (Key)

/-! ### Array classes -/

namespace Registry

variable {r r' : Registry} {c : ClassId} {e : ClassEntry}

/-- Array classes declare no constructors. -/
def ArraysHaveNoConstructors (r : Registry) : Prop :=
  ∀ c, r.types.isArray c = true → r.types.constructors c = []

theorem Enters.types_eq (h : r.Enters r' c e) (k : ClassId) :
    r'.types.isArray k = (if c = k then e.kind.isArray else r.types.isArray k) ∧
      r'.types.constructors k = if c = k then e.constructors else r.types.constructors k := by
  unfold HostTypes.isArray types
  dsimp only
  rw [h.entryOf?]
  split_ifs
  · exact ⟨rfl, rfl⟩
  · exact ⟨rfl, rfl⟩

theorem ArraysHaveNoConstructors.enters (hr : r.ArraysHaveNoConstructors) (h : r.Enters r' c e)
    (he : e.kind.isArray = true → e.constructors = []) : r'.ArraysHaveNoConstructors := by
  intro k hk
  obtain ⟨hkind, hconstructors⟩ := h.types_eq k
  rw [hkind] at hk
  rw [hconstructors]
  split_ifs at hk ⊢
  · exact he hk
  · exact hr k hk

end Registry

theorem Registration.Reachable.constructors_of_isArray {g : Registration} (hg : g.Reachable)
    (hids : g.registry.HasFreshIds) : g.registry.ArraysHaveNoConstructors := by
  have hinitial : Registry.initial.ArraysHaveNoConstructors := by
    intro c hc
    obtain ⟨component, hkind⟩ : ∃ d, Registry.initial.types.kind c = .array d := by
      unfold HostTypes.isArray at hc
      cases hkind : Registry.initial.types.kind c with
      | array d => exact ⟨d, rfl⟩
      | _ => rw [hkind] at hc; cases hc
    rcases Registry.eq_of_kind_initial hkind with ⟨-, rfl⟩ | ⟨-, rfl⟩ <;> decide +kernel
  obtain ⟨n, hn⟩ := hg.exists_reachedBy
  refine hn.entries_induction (P := fun _ => Registry.ArraysHaveNoConstructors) hinitial
    (fun h => h) (fun h henters => h.enters henters fun _ => rfl)
    (fun h hclass henters => h.enters henters fun harray => ?_) hids
  rw [harray] at hclass
  cases hclass

/-! ### The class that a descriptor reports -/

/-- The class that a descriptor reports is the class it was asked for, except for array classes. -/
theorem Descriptor.Key.cls_ofClass_of_isArray_eq_false {h : HostTypes} {c : ClassId}
    (hc : h.isArray c = false) : (ofClass h c).cls = c := by
  unfold ofClass
  split_ifs with hobject hmeta harray
  · exact hobject.symm
  · exact hmeta.symm
  · rw [hc] at harray
    cases harray
  · rfl

/-- In a registry, the class that a descriptor reports declares the constructors of the class it was
asked for. -/
theorem Registration.Reachable.constructors_cls {g : Registration} (hg : g.Reachable)
    (hids : g.registry.HasFreshIds) (c : ClassId) :
    g.registry.types.constructors (Key.ofClass g.registry.types c).cls
      = g.registry.types.constructors c := by
  have hnone := hg.constructors_of_isArray hids
  cases hc : g.registry.types.isArray c with
  | false => rw [Key.cls_ofClass_of_isArray_eq_false hc]
  | true =>
    by_cases hsame : (Key.ofClass g.registry.types c).cls = c
    · rw [hsame]
    · have hcls : (Key.ofClass g.registry.types c).cls = ClassId.objectArray := by
        revert hsame
        unfold Key.ofClass
        split_ifs with hobject hmeta
        · exact fun hsame => absurd hobject.symm hsame
        · exact fun hsame => absurd hmeta.symm hsame
        · exact fun _ => rfl
      have hobjectArray : g.registry.types.isArray ClassId.objectArray = true := by
        show (((g.registry.entryOf? _).map ClassEntry.kind).getD .concrete).isArray = true
        rw [(hg.sound hids).registry.reserved _ (by decide)]
        decide +kernel
      rw [hcls, hnone _ hobjectArray, hnone _ hc]

namespace Session

/-! ### The answer -/

/-- **Constructors are found by exactly their signatures.**  Whatever was asked before, a class has
by each signature the last of the constructors it declares that is public, not hidden and has
exactly these erased parameters, and none by a signature if there is no such constructor.  To create
an instance comes to nothing exactly if there is none; otherwise that constructor is called once,
without a receiver.

Nothing else has a part in it: the answer is the same in every environment, after any requests and
for every class with the same declared constructors, whatever its ancestors, its members, the
renamer, the overloads taken and the options are.

The constructors are those of the class that the descriptor reports.  This is the class itself
unless it is an array class, and in a registry it always declares the same constructors. -/
theorem constructorsOf_areDeclared (env : Environment) (requests : List Request) (c : ClassId) :
    ∃ t, answer env requests (constructorsOf env c)
        = (env.types.name (Key.ofClass env.types c).cls, t) ∧
      t.AreDeclared (env.types.constructors (Key.ofClass env.types c).cls) ∧
      (∀ {ω σ ε : Type} (host : Host ω σ ε) (s : Signature) (args : List (Option ω)) (state : σ),
        Member.Creates (env.types.constructors (Key.ofClass env.types c).cls) host
          (env.types.name (Key.ofClass env.types c).cls) s args
          (Member.construct host (env.types.name (Key.ofClass env.types c).cls) t s args)
          (Member.construct host.logged (env.types.name (Key.ofClass env.types c).cls) t s args)
          state) ∧
      (∀ (env' : Environment) (requests' : List Request) (c' : ClassId),
        env'.types.constructors (Key.ofClass env'.types c').cls
            = env.types.constructors (Key.ofClass env.types c).cls →
          (answer env' requests' (constructorsOf env' c')).2 = t) ∧
      (env.types.isArray c = false → (Key.ofClass env.types c).cls = c) ∧
      ∀ g : Registration, g.Reachable → g.registry.HasFreshIds → env.types = g.registry.types →
        env.types.constructors (Key.ofClass env.types c).cls = env.types.constructors c := by
  have hdeclared := env.areDeclared_constructors (Key.ofClass env.types c).cls
  refine ⟨_, answer_constructorsOf env requests c, hdeclared, ?_, ?_,
    Key.cls_ofClass_of_isArray_eq_false, ?_⟩
  · intro ω σ ε host s args state
    exact Member.creates_of_areDeclared hdeclared host _ s args state
  · intro env' requests' c' hsame
    rw [answer_constructorsOf]
    exact Environment.constructors_congr hsame
  · rintro g hg hids htypes
    rw [htypes]
    exact hg.constructors_cls hids c

end Session

end ScriptSurface
