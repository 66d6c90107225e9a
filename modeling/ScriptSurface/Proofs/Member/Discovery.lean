import ScriptSurface.Member.Discovery
import ScriptSurface.Proofs.Member.Revisit

/-!
# What own members have in common

Own members are filled in one declaration at a time, so what holds of the empty table and survives a
field and a method holds of the own members of every class: `Environment.ownMembers_induction`.
-/

namespace ScriptSurface

theorem MemberTable.find?_change (t : MemberTable) (name n : String) (f : Slot → Slot) :
    (t.change name f).find? n
      = if name = n then some (f ((t.find? n).getD Slot.empty)) else t.find? n :=
  Assoc.find?_alter t name n _

/-- Changing a slot keeps overloads under their signatures if the change does. -/
theorem MemberTable.WellKeyed.change {t : MemberTable} (h : t.WellKeyed) {name : String}
    {f : Slot → Slot}
    (hf : ∀ s : Slot, (∀ σ b, s.overloads.find? σ = some b → b.signature = σ) →
      ∀ σ b, (f s).overloads.find? σ = some b → b.signature = σ) :
    (t.change name f).WellKeyed := by
  intro n σ b hb
  rw [overload?, find?_change] at hb
  split_ifs at hb
  · refine hf _ (fun σ b hb => ?_) σ b hb
    cases hn : t.find? n with
    | none =>
      rw [hn] at hb
      cases hb
    | some s =>
      refine h n σ b ?_
      rw [overload?, hn]
      rwa [hn] at hb
  · exact h n σ b hb

namespace Environment

variable (env : Environment) (c : ClassId)

/-- Induction on the declarations that own members come from. -/
theorem ownMembers_induction {P : MemberTable → Prop} (empty : P ∅)
    (field : ∀ t f, f ∈ env.eligibleFields c → P t → P (env.addField c t f))
    (method : ∀ t m, m ∈ env.eligibleMethods c → P t → P (env.addMethod c t m)) :
    P (env.ownMembers c) := by
  have hfoldl {β : Type} {g : MemberTable → β → MemberTable} {l : List β}
      (hg : ∀ t, ∀ b ∈ l, P t → P (g t b)) : ∀ t, P t → P (l.foldl g t) := by
    induction l with
    | nil => exact fun t ht => ht
    | cons b l ih =>
      intro t ht
      exact ih (fun t b hb => hg t b (List.mem_cons_of_mem _ hb)) _ (hg t b List.mem_cons_self ht)
  unfold ownMembers
  split_ifs
  · exact empty
  · exact hfoldl method _ (hfoldl field _ empty)

/-- Own overloads are kept under their own signatures. -/
theorem wellKeyed_ownMembers : (env.ownMembers c).WellKeyed := by
  refine env.ownMembers_induction c ?_ ?_ ?_
  · intro n σ b hb
    cases hb
  · exact fun t f _ ht => ht.change fun s hs => hs
  · intro t m _ ht
    have hadd : ∀ {t : MemberTable}, t.WellKeyed →
        (t.change (env.methodName c m) (Slot.addOverload (env.bindMethod c m))).WellKeyed := by
      intro t ht
      refine ht.change fun s hs σ b hb => ?_
      rw [Slot.addOverload, Assoc.find?_put] at hb
      split_ifs at hb with hσ
      · rw [← Option.some.inj hb, hσ]
      · exact hs σ b hb
    unfold addMethod
    -- a getter or a setter has its property put down before the overload
    split
    · exact hadd (ht.change fun s hs => hs)
    · exact hadd (ht.change fun s hs => hs)
    · exact hadd ht

end Environment

end ScriptSurface
