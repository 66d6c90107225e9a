import ScriptSurface.Proofs.Mapping.Recursion
import ScriptSurface.Proofs.Registry.TypeParams
import ScriptSurface.Proofs.Session.Invariants
import ScriptSurface.Proofs.Session.Mappings

/-!
# Type parameters and their identities

`Draft.KeepIdentities` is what is expected of the variables a draft answered once its class is
registered: they are all different, each is declared with the name and the bound that the draft was
told, and the mapping of a class that does no more than apply the class binds each of them to the
argument at its own position.

That is so exactly if there are no more of them than positions
(`Draft.Answered.keepIdentities_iff`).  Since what a class binds directly wins over all else, it
does not matter what is above the two classes: in any hierarchy, every mapping that a session keeps
binds what is direct (`Session.BindsDirectly`).
-/

namespace ScriptSurface

/-! ### One declared supertype -/

/-- Apart from the universal base type, the class declares this supertype only. -/
def HostTypes.DeclaresOnly (h : HostTypes) (c : ClassId) (e : TypeExpr) : Prop :=
  (h.declaredSupertypes c).filter (fun t => t.rawClass? ≠ some ClassId.object) = [e]

namespace Mapping

variable {h : HostTypes} {c : ClassId} {e : TypeExpr}

/-- The universal base type gives no bindings. -/
theorem bindingsOf_eq_nil (hobject : h.typeParams ClassId.object = [])
    (he : e.rawClass? = some ClassId.object) : bindingsOf h e = [] := by
  cases e with
  | applied raw args s =>
    obtain rfl : raw = ClassId.object := Option.some.inj he
    simp [bindingsOf, hobject]
  | _ => rfl

/-- What a class binds directly is what its one declared supertype gives. -/
theorem find?_direct_of_declaresOnly (hobject : h.typeParams ClassId.object = [])
    (he : h.DeclaresOnly c e)
    (hpos : ∀ raw ∈ e.rawClass?, (h.typeParams raw).length ≤ UInt16.size) (v : TypeVar) :
    (direct h c).find? v = h.argumentFor? v e := by
  have hall : ∀ l : List TypeExpr,
      (l.filter fun t => t.rawClass? ≠ some ClassId.object).flatMap (bindingsOf h)
        = l.flatMap (bindingsOf h) := by
    intro l
    induction l with
    | nil => rfl
    | cons t l ih =>
      by_cases ht : t.rawClass? = some ClassId.object
      · rw [List.filter_cons_of_neg (by simp [ht]), ih, List.flatMap_cons,
          bindingsOf_eq_nil hobject ht, List.nil_append]
      · rw [List.filter_cons_of_pos (by simp [ht]), List.flatMap_cons, List.flatMap_cons, ih]
  rw [direct_eq, ← hall, he, List.flatMap_singleton, Assoc.find?_ofList]
  exact find?_reverse_bindingsOf hpos v

/-- A class that applies a generic one can be generic. -/
theorem isTrivial_eq_false_of_declaresOnly (hreg : h.Regular) {raw : ClassId} {args : List TypeExpr}
    {stamp : Stamp} (he : h.DeclaresOnly c (.applied raw args stamp))
    (hraw : h.typeParams raw ≠ []) : isTrivial h c = false := by
  have hfilter : .applied raw args stamp ∈
      (h.declaredSupertypes c).filter fun t => t.rawClass? ≠ some ClassId.object := by
    rw [he]
    exact List.mem_singleton_self _
  have hsuper : raw ∈ h.supertypes c :=
    hreg.mem_supertypes (List.mem_filter.1 hfilter).1 rfl
  rw [← Bool.not_eq_true]
  intro hc
  -- only the universal base type is above a class that cannot be generic, and that is not generic
  rw [hreg.eq_object c hc raw hsuper] at hraw
  exact hraw hreg.typeParams_object

end Mapping

/-- A type gives for a variable of its class the argument at the position of the variable. -/
theorem HostTypes.argumentFor?_applied (h : HostTypes) {v : TypeVar}
    (hv : v.index.toNat < (h.typeParams v.owner).length) (args : List TypeExpr) (stamp : Stamp) :
    h.argumentFor? v (.applied v.owner args stamp) = args[v.index.toNat]? :=
  if_pos ⟨rfl, hv⟩

/-! ### What mappings bind in any hierarchy -/

namespace Session

/-- The mappings that are kept bind what is direct. -/
def BindsDirectly (h : HostTypes) (s : Session) : Prop :=
  ∀ c m, s.mappings.find? c = some m →
    ∀ v t, (Mapping.direct h c).find? v = some t → m.find? v = some t

theorem ignoresNotes_bindsDirectly (h : HostTypes) : IgnoresNotes (BindsDirectly h) := by
  intro s s' _ hmappings hs
  unfold BindsDirectly
  rw [hmappings]
  exact hs

theorem ensures_mappingWithin_bindsDirectly (h : HostTypes) (limit n : ℕ) (c : ClassId) :
    Ensures (BindsDirectly h) (mappingWithin h limit n c) fun m s =>
      (0 < n → Mapping.isTrivial h c = false →
        ∀ v t, (Mapping.direct h c).find? v = some t → m.find? v = some t) ∧
      s.BindsDirectly h := by
  have hnotes := ignoresNotes_bindsDirectly h
  induction n generalizing c with
  | zero => exact .pure fun s hs => ⟨fun hn => absurd hn (Nat.lt_irrefl 0), hs⟩
  | succ n ih =>
    rw [mappingWithin]
    split_ifs with htrivial
    · refine .pure fun s hs => ⟨fun _ hnot => ?_, hs⟩
      rw [htrivial] at hnot
      cases hnot
    · refine .bind_get fun s hs => ?_
      split
      · next m hm => exact .pure fun s' heq => heq ▸ ⟨fun _ _ => hs c m hm, hs⟩
      · refine .of_state (.bind (Keeps.mapM (fun p => ?_) _) fun inherited => ?_) hs
        · exact .bind ((ih p).mono (fun _ hs => hs) fun _ _ hs => hs.2) fun m =>
            .bind (hnotes.keeps_noteTooDeep _ _) fun _ => .pure _
        · refine .bind (hnotes.keeps_note _) fun _ s hs => ?_
          -- direct bindings are put down last
          have hdirect : ∀ v t, (Mapping.direct h c).find? v = some t →
              (Mapping.ofTable (Mapping.compose (Mapping.direct h c) limit inherited)).share.find? v
                = some t := by
            intro v t hv
            rw [Mapping.find?_share, Mapping.find?_ofTable, Mapping.find?_compose, hv,
              Option.some_or]
          refine ⟨fun _ _ => hdirect, fun k m hm => ?_⟩
          change (s.mappings.put c _).find? k = some m at hm
          rw [Assoc.find?_put] at hm
          split_ifs at hm with hk
          · subst hk
            exact Option.some.inj hm ▸ hdirect
          · exact hs k m hm

variable {env : Environment}

theorem isInvariant_bindsDirectly (env : Environment) :
    IsInvariant env (BindsDirectly env.types) where
  ignoresNotes := ignoresNotes_bindsDirectly env.types
  describe c := (ignoresNotes_bindsDirectly env.types).keeps_describeWithin (fun _ _ _ hs => hs) _ c
  ownMembers := (ignoresNotes_bindsDirectly env.types).keeps_ownMembers fun _ _ hs => hs
  members := (ignoresNotes_bindsDirectly env.types).keeps_members
    ((ignoresNotes_bindsDirectly env.types).keeps_ownMembers fun _ _ hs => hs) fun _ _ _ hs => hs
  constructors := (ignoresNotes_bindsDirectly env.types).keeps_constructors fun _ _ hs => hs
  mapping c := (ensures_mappingWithin_bindsDirectly env.types env.limit ClassId.count c).mono
    (fun _ hs => hs) fun _ _ hs => hs.2

/-- A session's mapping of a class that can be generic binds what is direct, whatever was asked
before and whatever is above the class. -/
theorem find?_mapping_of_direct (env : Environment) (requests : List Request) {c : ClassId}
    (hc : Mapping.isTrivial env.types c = false) {v : TypeVar} {t : TypeExpr}
    (hv : (Mapping.direct env.types c).find? v = some t) :
    (answer env requests (mapping env.types env.limit c)).find? v = some t := by
  have hstart : (start env.types).BindsDirectly env.types := nofun
  have hafter := (isInvariant_bindsDirectly env).after hstart requests
  exact (ensures_mappingWithin_bindsDirectly env.types env.limit ClassId.count c _ hafter).1
    (by decide) hc v t hv

end Session

/-! ### Identities -/

namespace Draft

open Session (answer mapping)

/-- The variables that a draft answered stand each for its own type parameter of the class. -/
structure KeepIdentities (types : HostTypes) (c : ClassId) (answers : List Answer) : Prop where
  /-- They are all different. -/
  distinct : (answers.map fun a => a.var.asVar?).Nodup
  /-- The class declares each of them with the name and the bound that the draft was told. -/
  declared : ∀ a ∈ answers, ∃ v, a.var.asVar? = some v ∧ v.owner = c ∧
    types.param? v = some a.param
  /-- Where a class does no more than apply the class to one argument for each type parameter, each
  of them is bound to the argument at its own position. -/
  bound : ∀ (env : Environment) (requests : List Session.Request) (sub : ClassId)
    (args : List TypeExpr) (stamp : Stamp), env.types = types →
    types.DeclaresOnly sub (.applied c args stamp) → args.length = answers.length →
    ∀ (i : ℕ) (a : Answer) (arg : TypeExpr), answers[i]? = some a → args[i]? = some arg →
      ∃ v, a.var.asVar? = some v ∧
        (answer env requests (mapping env.types env.limit sub)).find? v = some arg

/-- In a host that knows the class, a class that does no more than apply it binds each variable to
the argument at its own position, if there are at most 2¹⁶ of them. -/
theorem Answered.find?_mapping {d : Draft} {answers : List Answer} (h : d.Answered answers)
    (hle : answers.length ≤ UInt16.size) {env : Environment} (hreg : env.types.Regular)
    (hparams : env.types.typeParams d.id = d.typeParams) (requests : List Session.Request)
    {sub : ClassId} {args : List TypeExpr} {stamp : Stamp}
    (honly : env.types.DeclaresOnly sub (.applied d.id args stamp)) {i : ℕ}
    (hi : i < answers.length) {arg : TypeExpr} (harg : args[i]? = some arg) :
    (answer env requests (mapping env.types env.limit sub)).find? (.at d.id i) = some arg := by
  have hcount : (env.types.typeParams d.id).length = answers.length := by
    rw [hparams, h.length_typeParams]
  have hindex : (TypeVar.at d.id i).index.toNat = i := by
    rw [TypeVar.toNat_index_at, Nat.mod_eq_of_lt (by omega)]
  have hpos : ∀ raw ∈ (TypeExpr.applied d.id args stamp).rawClass?,
      (env.types.typeParams raw).length ≤ UInt16.size := by
    rintro raw ⟨⟩
    omega
  have hgeneric : env.types.typeParams d.id ≠ [] := by
    rw [← List.length_pos_iff]
    omega
  have hgiven : env.types.argumentFor? (.at d.id i) (.applied d.id args stamp) = some arg := by
    have hlt : (TypeVar.at d.id i).index.toNat < (env.types.typeParams d.id).length := by omega
    refine (env.types.argumentFor?_applied hlt args stamp).trans ?_
    rw [hindex]
    exact harg
  refine Session.find?_mapping_of_direct env requests
    (Mapping.isTrivial_eq_false_of_declaresOnly hreg honly hgeneric) ?_
  rw [Mapping.find?_direct_of_declaresOnly hreg.typeParams_object honly hpos, hgiven]

/-- **Type parameters keep their identities up to 2¹⁶ of them.**  A draft, whatever else it
declares, answers the same variable for two type parameters exactly if their positions are the same
modulo 2¹⁶.

Once it is committed, and ever after, as long as ids have not run out, the variables stand each for
its own type parameter exactly if there are at most 2¹⁶ of them: then they are all different, each
is declared with the name and the bound that the draft was told, and the mapping of a class that
does no more than apply the class binds each of them to the argument at its own position.  With one
more, two of them are the same. -/
theorem Answered.keepIdentities_iff {d : Draft} {answers : List Answer} (h : d.Answered answers)
    {r : Registry} {before after : List Draft}
    (hg : Registration.Reachable ⟨r, before ++ d :: after⟩) {g : Registration}
    (hrun : Relation.ReflTransGen Registration.Step ⟨(d.commit r).2, before ++ after⟩ g)
    (hids : g.registry.HasFreshIds) :
    (∀ (i j : ℕ) (a b : Answer), answers[i]? = some a → answers[j]? = some b →
      (a.var.asVar? = b.var.asVar? ↔ i ≡ j [MOD UInt16.size])) ∧
    (KeepIdentities g.registry.types d.id answers ↔ answers.length ≤ UInt16.size) := by
  have hcommitted : Registration.Reachable ⟨(d.commit r).2, before ++ after⟩ :=
    hg.tail (.commit r before after d)
  have hreg := Registration.Reachable.regular (hcommitted.trans hrun) hids
  have hids' := hids.of_le (Registration.reserved_le_of_run hrun)
  have hgrows := hcommitted.grows_of_run hrun hids
  have hparams : g.registry.types.typeParams d.id = d.typeParams :=
    d.typeParams_of_grows_commit hgrows
  refine ⟨?_, fun hkeep => h.nodup_iff.1 hkeep.distinct, fun hle => ?_⟩
  · intro i j a b ha hb
    rw [h.asVar?_getElem ha, h.asVar?_getElem hb, Option.some_inj]
    exact TypeVar.at_eq_iff d.id i j
  · refine ⟨h.nodup_iff.2 hle, fun a ha => ?_, ?_⟩
    · obtain ⟨i, hi⟩ := List.getElem?_of_mem ha
      refine ⟨_, h.asVar?_getElem hi, rfl, ?_⟩
      show (g.registry.types.typeParams d.id)[(TypeVar.at d.id i).index.toNat]? = _
      rw [hparams]
      exact h.getElem?_typeParams hle hi
    · rintro env requests sub args stamp henv honly - i a arg ha harg
      rw [← henv] at hreg hparams honly
      have hi : i < answers.length := (List.getElem?_eq_some_iff.1 ha).1
      exact ⟨_, h.asVar?_getElem ha,
        h.find?_mapping hle hreg hparams requests honly hi harg⟩

/-- `Box<T>` keeps the identity of its type parameter, and `Bag extends Box<String>` binds it. -/
theorem keepIdentities_boxes : boxDraft.Answered [⟨.var (.at 16 0) .anonymous, ⟨"T", .object⟩⟩] ∧
    KeepIdentities boxes.registry.types 16 [⟨.var (.at 16 0) .anonymous, ⟨"T", .object⟩⟩] := by
  have hanswered : boxDraft.Answered [⟨.var (.at 16 0) .anonymous, ⟨"T", .object⟩⟩] :=
    (Answered.start .concrete "Box" Registry.initial).param .anonymous "T" .object
  have hstarted : Registration.Reachable
      ⟨(Registry.reserve Registry.initial).2, [] ++ boxDraft :: []⟩ :=
    ((Relation.ReflTransGen.refl (r := Registration.Step)).tail
      (.start Registry.initial [] (.inl rfl) "Box")).tail
      (.edit _ [] [] (.addTypeParam _ .anonymous "T" TypeExpr.object))
  have hrun : Relation.ReflTransGen Registration.Step ⟨boxRegistry, [] ++ []⟩ boxes :=
    (((Relation.ReflTransGen.refl (r := Registration.Step)).tail
      (.start boxRegistry [] (.inl rfl) "Bag")).tail
      (.edit _ [] [] (.extend _ _))).tail (.commit _ [] [] bagDraft)
  exact ⟨hanswered,
    (hanswered.keepIdentities_iff hstarted hrun hasFreshIds_boxes).2.2 (by decide)⟩

/-- One type parameter more than there are positions, all of them alike. -/
def crowdParams : List (Stamp × TypeParam) :=
  .replicate (UInt16.size + 1) (.anonymous, ⟨"", .object⟩)

/-- A class `Crowd` with these type parameters, under way, after the variables it answered. -/
def crowd : List TypeExpr × Draft :=
  (Draft.start .concrete "Crowd" Registry.initial).1.addTypeParams crowdParams

/-- The answers for these type parameters. -/
def crowdAnswers : List Answer := List.zipWith Answer.mk crowd.1 (crowdParams.map Prod.snd)

/-- With 2¹⁶ + 1 type parameters, the last variable is the first one over again. -/
theorem not_keepIdentities : crowd.2.Answered crowdAnswers ∧
    Registration.Reachable ⟨(Registry.reserve Registry.initial).2, [] ++ crowd.2 :: []⟩ ∧
    (crowd.2.commit (Registry.reserve Registry.initial).2).2.HasFreshIds ∧
    ¬KeepIdentities (crowd.2.commit (Registry.reserve Registry.initial).2).2.types crowd.2.id
      crowdAnswers := by
  have hanswered : crowd.2.Answered crowdAnswers := by
    have hrun := (Answered.start .concrete "Crowd" Registry.initial).addTypeParams crowdParams
    rw [List.nil_append] at hrun
    exact hrun
  refine ⟨hanswered, ?_, ?_, fun hkeep => ?_⟩
  · exact ((Relation.ReflTransGen.refl (r := Registration.Step)).tail
      (.start Registry.initial [] (.inl rfl) "Crowd")).trans
      (Registration.run_addTypeParams _ [] [] _ _)
  · show 16 + (crowd.2.commit (Registry.reserve Registry.initial).2).2.reserved ≤ ClassId.count
    decide +kernel
  · have hle := hanswered.nodup_iff.1 hkeep.distinct
    have hlength : crowdAnswers.length = UInt16.size + 1 := by
      simp [crowdAnswers, crowd, crowdParams, Draft.addTypeParams]
    omega

end Draft

end ScriptSurface
