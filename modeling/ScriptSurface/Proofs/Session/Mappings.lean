import ScriptSurface.Proofs.Mapping.Composition
import ScriptSurface.Proofs.Registry.Registration
import ScriptSurface.Proofs.Session.Requests

/-!
# The mappings a session answers

The types are those of a registry, in an acyclic hierarchy, and the session may have been asked
anything before.

Where classes name their supertypes in full and in their own terms, a session's mapping of a class
binds all that ancestors declare, and what it makes of a type in the terms of the class or of its
ancestors mentions only what the class itself declares, so that the mapping leaves it as it is
(`inTermsOf?_closed`).  In the terms of a class whose superclass is named in full, a type is what
the class's direct bindings make of it in the terms of the superclass (`inTermsOf?_superclass`).
-/

namespace ScriptSurface

/-! ### A generic class and one below it -/

/-- A class `Box<T>`, under way. -/
def boxDraft : Draft :=
  ((Draft.start .concrete "Box" Registry.initial).1.addTypeParam .anonymous "T" TypeExpr.object).2

/-- The registry with `Box<T>` in it. -/
def boxRegistry : Registry := (boxDraft.commit (Registry.reserve Registry.initial).2).2

/-- A class `Bag extends Box<String>`, under way. -/
def bagDraft : Draft :=
  (Draft.start .concrete "Bag" boxRegistry).1.extend
    (.applied 16 [.plain ClassId.string .anonymous] .anonymous)

/-- A registration with `Box<T>` under id 16 and `Bag extends Box<String>` under id 17. -/
def boxes : Registration := ⟨(bagDraft.commit (Registry.reserve boxRegistry).2).2, []⟩

theorem reachable_boxes : boxes.Reachable := by
  have hbox : Registration.Reachable ⟨boxRegistry, []⟩ :=
    (((Relation.ReflTransGen.refl (r := Registration.Step)).tail
      (.start Registry.initial [] (.inl rfl) "Box")).tail
      (.edit _ [] [] (.addTypeParam _ .anonymous "T" TypeExpr.object))).tail
      (.commit _ [] [] boxDraft)
  exact ((hbox.tail (.start boxRegistry [] (.inl rfl) "Bag")).tail
    (.edit _ [] [] (.extend _ _))).tail (.commit _ [] [] bagDraft)

theorem hasFreshIds_boxes : boxes.registry.HasFreshIds := by
  show 16 + boxes.registry.reserved ≤ ClassId.count
  decide +kernel

/-- The environment of `boxes` with raw names and default options. -/
def boxEnvironment : Environment := .plain boxes.registry.types

theorem acyclic_boxes : boxEnvironment.types.Acyclic :=
  Registry.acyclic_of_index_lt (by decide +kernel)

theorem wellDeclared_boxes : boxEnvironment.types.WellDeclared :=
  Registry.wellDeclared_of_entries (by decide +kernel)

theorem args_boxes : ∀ c, ∀ e ∈ boxEnvironment.types.declaredSupertypes c, ∀ t ∈ e.args,
    TypeExpr.occurrences 0 t = [] := by
  have hentries : ∀ x ∈ boxes.registry.entries.toList,
      ∀ e ∈ x.2.genericSuperclass.toList ++ x.2.genericInterfaces, ∀ t ∈ e.args,
        TypeExpr.occurrences 0 t = [] := by
    decide +kernel
  intro c e he
  obtain ⟨x, hmem, -, hex⟩ := Registry.exists_entry_of_mem_declaredSupertypes he
  exact hentries (c, x) hmem e hex

namespace Session

/-! ### Nothing is left of ancestors' variables -/

/-- In the terms of a class, nothing is left of its ancestors' variables: its mapping binds them all
to types that mention only what the class declares, and so does what the mapping makes of types, on
which it then has nothing more to do. -/
theorem inTermsOf?_closed {g : Registration} (hg : g.Reachable) (hids : g.registry.HasFreshIds)
    (env : Environment) (henv : env.types = g.registry.types) (hac : env.types.Acyclic)
    (hdecl : env.types.WellDeclared) (requests : List Request) (c : ClassId)
    (hdeep : ∀ a, a = c ∨ env.types.HasAncestor c a →
      ∀ b ∈ (answer env requests (mapping env.types env.limit a)).toList,
        b.2.VarsWithin env.limit) :
    (∀ b ∈ (answer env requests (mapping env.types env.limit c)).toList,
      ∀ w ∈ b.2.vars, env.types.Declares c w) ∧
    (∀ a v, env.types.HasAncestor c a → env.types.Declares a v →
      ((answer env requests (mapping env.types env.limit c)).find? v).isSome) ∧
    (∀ t : TypeExpr, t.VarsWithin env.limit → (∀ v ∈ t.vars, env.types.InScope c v) →
      (∀ w ∈ ((answer env requests (inTermsOf? env c t)).getD t).vars,
        env.types.Declares c w) ∧
      ∀ more, answer env (requests ++ more)
        (inTermsOf? env c ((answer env requests (inTermsOf? env c t)).getD t)) = none) ∧
    (∀ ts : List TypeExpr,
      (∀ t ∈ ts, t.VarsWithin env.limit ∧ ∀ v ∈ t.vars, env.types.InScope c v) →
      (∀ u ∈ (answer env requests (allInTermsOf? env c ts)).getD ts,
        ∀ w ∈ u.vars, env.types.Declares c w) ∧
      ∀ more, answer env (requests ++ more)
        (allInTermsOf? env c ((answer env requests (allInTermsOf? env c ts)).getD ts)) = none) := by
  have hreg : env.types.Regular := henv ▸ hg.regular hids
  simp only [answer_mapping hac, answer_inTermsOf? hac, answer_allInTermsOf? hac] at hdeep ⊢
  have htargets : Mapping.TargetsWithin env.types env.limit c := by
    intro a ha v target hv
    rw [Relation.reflTransGen_iff_eq_or_transGen] at ha
    exact hdeep a ha (v, target) ((Mapping.mem_toList_iff _).2 hv)
  -- what the mapping makes of a type, by itself or in a list
  have hdeclares : ∀ t : TypeExpr, t.VarsWithin env.limit →
      (∀ v ∈ t.vars, env.types.InScope c v) →
      ∀ w ∈ (t.substitute (Mapping.of env.types env.limit c).find? env.limit).vars,
        env.types.Declares c w :=
    fun t => Mapping.declares_of_mem_vars_substitute hac hreg hdecl htargets
  refine ⟨fun b hb => ?_, fun a v ha hv => ?_, fun t hwithin hvars => ?_, fun ts hts => ?_⟩
  · exact Mapping.declares_of_find?_of hac hreg hdecl htargets ((Mapping.mem_toList_iff _).1 hb)
  · exact Mapping.isSome_find?_of hac hreg hdecl ha hv
  · have hclosed := hdeclares t hwithin hvars
    exact ⟨hclosed, fun _ => Mapping.substitute?_of_eq_none hac hreg hclosed⟩
  · have hclosed : ∀ u ∈ (TypeExpr.substituteAll? (Mapping.of env.types env.limit c).find?
        env.limit 0 ts).getD ts, ∀ w ∈ u.vars, env.types.Declares c w := by
      intro u hu
      rw [TypeExpr.substituteAll?_getD, List.mem_map] at hu
      obtain ⟨t, ht, rfl⟩ := hu
      exact hdeclares t (hts t ht).1 (hts t ht).2
    exact ⟨hclosed, fun _ => TypeExpr.substituteAll?_eq_none_iff.2 fun u hu =>
      Mapping.substitute?_of_eq_none hac hreg (hclosed u hu)⟩

theorem inTermsOf?_closed_boxes :
    boxes.Reachable ∧ boxes.registry.HasFreshIds ∧ boxEnvironment.types.Acyclic ∧
      boxEnvironment.types.WellDeclared ∧
      ((answer boxEnvironment [.mapping 16]
        (mapping boxEnvironment.types boxEnvironment.limit 17)).find? (.at 16 0)).isSome := by
  refine ⟨reachable_boxes, hasFreshIds_boxes, acyclic_boxes, wellDeclared_boxes, ?_⟩
  refine (inTermsOf?_closed reachable_boxes hasFreshIds_boxes boxEnvironment rfl acyclic_boxes
    wellDeclared_boxes [.mapping 16] 17 ?_).2.1 16 (.at 16 0)
    (.single (by decide +kernel)) ⟨rfl, by decide +kernel⟩
  intro a _ b hb o ho
  rw [answer_mapping acyclic_boxes, Mapping.mem_toList_iff] at hb
  rw [Mapping.occurrences_eq_nil acyclic_boxes args_boxes hb] at ho
  cases ho

/-! ### A superclass's terms first -/

/-- In the terms of a class whose superclass is named in full, a type is what the direct bindings of
the class make of it in the terms of the superclass. -/
theorem inTermsOf?_superclass {g : Registration} (hg : g.Reachable)
    (hids : g.registry.HasFreshIds) (env : Environment) (henv : env.types = g.registry.types)
    (hac : env.types.Acyclic) (requests : List Request) {c p : ClassId} {e t : TypeExpr}
    (he : env.types.genericSuperclass c = some e) (hnames : env.types.Names p e)
    (hvars : ∀ v ∈ t.vars, env.types.Declares p v ∨
      ((answer env requests (mapping env.types env.limit p)).find? v).isSome)
    (hdirect : ∀ v ∈ t.vars,
      ((answer env requests (mapping env.types env.limit p)).find? v).isSome →
        (Mapping.direct env.types c).find? v = none)
    (hwithin : t.VarsWithin env.limit)
    (hwithin' : ((answer env requests (inTermsOf? env p t)).getD t).VarsWithin env.limit) :
    ((answer env requests (inTermsOf? env c t)).getD t).alike
      (((answer env requests (inTermsOf? env p t)).getD t).substitute
        (Mapping.direct env.types c).find? env.limit) = true := by
  have hreg : env.types.Regular := henv ▸ hg.regular hids
  simp only [answer_mapping hac, answer_inTermsOf? hac] at hvars hdirect hwithin' ⊢
  rw [TypeExpr.alike_iff]
  exact Mapping.bare_substitute_of hac hreg he hnames hvars hdirect hwithin hwithin'

theorem inTermsOf?_superclass_boxes :
    boxes.Reachable ∧ boxes.registry.HasFreshIds ∧ boxEnvironment.types.Acyclic ∧
      ((answer boxEnvironment [] (inTermsOf? boxEnvironment 17 (.var (.at 16 0) .anonymous))).getD
        (.var (.at 16 0) .anonymous)).alike
      (((answer boxEnvironment [] (inTermsOf? boxEnvironment 16 (.var (.at 16 0) .anonymous))).getD
        (.var (.at 16 0) .anonymous)).substitute
          (Mapping.direct boxEnvironment.types 17).find? boxEnvironment.limit) = true := by
  have hnone : (Mapping.of boxEnvironment.types boxEnvironment.limit 16).find? (.at 16 0) = none :=
    Mapping.find?_of_eq_none acyclic_boxes (reachable_boxes.regular hasFreshIds_boxes) rfl
  refine ⟨reachable_boxes, hasFreshIds_boxes, acyclic_boxes, ?_⟩
  refine inTermsOf?_superclass (p := 16)
    (e := .applied 16 [.plain ClassId.string .anonymous] .anonymous) reachable_boxes
    hasFreshIds_boxes boxEnvironment rfl acyclic_boxes [] rfl ⟨rfl, by decide +kernel⟩ ?_ ?_ ?_ ?_
  · intro v hv
    obtain rfl : v = .at 16 0 := by simpa [TypeExpr.vars, TypeExpr.occurrences] using hv
    exact .inl ⟨rfl, by decide +kernel⟩
  · intro v hv hsome
    obtain rfl : v = .at 16 0 := by simpa [TypeExpr.vars, TypeExpr.occurrences] using hv
    rw [answer_mapping acyclic_boxes] at hsome
    cases hnone ▸ hsome
  · intro o ho
    obtain rfl : o = (.at 16 0, 0) := by simpa [TypeExpr.occurrences] using ho
    exact Nat.zero_le _
  · rw [answer_inTermsOf? acyclic_boxes, TypeExpr.substitute?_eq_none]
    · intro o ho
      obtain rfl : o = (.at 16 0, 0) := by simpa [TypeExpr.occurrences] using ho
      exact Nat.zero_le _
    · intro o ho
      obtain rfl : o = (.at 16 0, 0) := by simpa [TypeExpr.occurrences] using ho
      exact hnone

end Session

end ScriptSurface
