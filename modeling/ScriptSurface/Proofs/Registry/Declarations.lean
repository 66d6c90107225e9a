import ScriptSurface.Proofs.Registry.Recorded
import ScriptSurface.Proofs.Registry.Tables

/-!
# What a registry holds of the drafts that were committed

`Registration.HasDeclared drafts g` says that `g` can come of a new registry by committing the given
drafts in turn, each when it is legal (`Draft.IsLegal`): the type variables that it mentions are its
own or those of classes that are registered by then.

So the variables that registered classes mention are those of registered classes
(`Registry.IsClosed`), and nothing that is registered leads back to a draft.  What is recorded of a
draft is therefore what its types erase to in the registry, right after the commit and ever after:
`Registration.HasDeclared.exists_entry`.  Apart from the types every host provides there are only
array classes and the classes of the drafts (`Registration.HasDeclared.entryOf?_cases`).
-/

namespace ScriptSurface

/-! ### Declared types -/

namespace Draft

/-- The types that are erased when a draft is committed. -/
def types (d : Draft) : List TypeExpr :=
  d.superclass.toList ++ d.interfaces ++ d.fields.map FieldDecl.genericType ++
    (d.methods ++ d.constructors).flatMap fun m => m.genericReturn :: m.genericParams

/-- Whether a draft can be committed.  Other classes whose type variables it mentions behind array
brackets were committed before, and no type that has to be erased comes to a variable that is
bounded by itself. -/
structure IsLegal (d : Draft) (r : Registry) : Prop where
  /-- The variables are the draft's own or those of registered classes. -/
  known : ∀ t ∈ d.types ++ d.typeParams.map TypeParam.bound, ∀ v, t.headVar? = some v →
    v.owner = d.id ∨ (r.entryOf? v.owner).isSome = true
  /-- Bounds come to an end. -/
  acyclic : ∀ t ∈ d.types, ∀ v, t.Reaches (d.bounds r.types.boundOf) v →
    ¬v.LeadsTo (d.bounds r.types.boundOf) v

end Draft

/-! ### Entries and drafts -/

/-- All but the recorded classes of a callable is as it was declared for a class. -/
structure Executable.IsDeclaredBy (m' : Executable) (c : ClassId) (m : Executable) : Prop where
  /-- Only the declaring class and the recorded classes are filled in. -/
  rest : m' = { m with declaring := c, params := m'.params, returns := m'.returns }
  /-- With an unknown return type the class that was there stays. -/
  returns : m.genericReturn.isUnknown = true → m'.returns = m.returns

/-- All but the recorded classes of an entry is as a draft declares it. -/
structure ClassEntry.IsDeclaredBy (e : ClassEntry) (d : Draft) : Prop where
  /-- The name is the draft's. -/
  name : e.name = d.name
  /-- The kind is the draft's. -/
  kind : e.kind = d.kind
  /-- A class that names no superclass extends the universal base type. -/
  superclass : d.superclass = none →
    e.superclass = if d.kind = .concrete then some ClassId.object else none
  /-- The type parameters are the draft's. -/
  typeParams : e.typeParams = d.typeParams
  /-- The superclass is as declared. -/
  genericSuperclass : e.genericSuperclass
    = (d.superclass <|> e.superclass.map (TypeExpr.ofClass .anonymous))
  /-- The interfaces are as declared. -/
  genericInterfaces : e.genericInterfaces = d.interfaces
  /-- The fields are the draft's. -/
  fields : List.Forall₂ (fun f f' => f' = { f with declaring := d.id, type := f'.type })
    d.fields e.fields
  /-- The methods are the draft's. -/
  methods : List.Forall₂ (fun m m' => m'.IsDeclaredBy d.id m) d.methods e.methods
  /-- The constructors are the draft's. -/
  constructors : List.Forall₂ (fun m m' => m'.IsDeclaredBy d.id m) d.constructors e.constructors
  /-- The prefixes are the draft's. -/
  strippedPrefixes : e.strippedPrefixes = d.strippedPrefixes

namespace Draft

theorem isDeclaredBy_finishExecutable (d : Draft) (m : Executable) :
    Ensures (fun _ => True) (d.finishExecutable m) fun m' _ => m'.IsDeclaredBy d.id m ∧ True := by
  intro r _
  unfold finishExecutable
  cases hunknown : m.genericReturn.isUnknown with
  | true => exact ⟨⟨rfl, fun _ => rfl⟩, trivial⟩
  | false => exact ⟨⟨rfl, fun h => by simp [hunknown] at h⟩, trivial⟩

/-- The entry that a commit registers is as the draft declares it. -/
theorem exists_isDeclaredBy_commit (d : Draft) (r : Registry) :
    ∃ e, (d.commit r).2.entryOf? d.id = some e ∧ e.IsDeclaredBy d := by
  have hsuperclass : Ensures (fun _ => True) d.eraseSuperclass fun c _ =>
      (d.superclass = none → c = if d.kind = .concrete then some ClassId.object else none) ∧
        True := by
    intro r _
    unfold eraseSuperclass
    cases d.superclass with
    | none => exact ⟨fun _ => rfl, trivial⟩
    | some t => exact ⟨nofun, trivial⟩
  have herase : ∀ t, Ensures (fun _ => True) (d.erase t) fun _ _ => True ∧ True :=
    fun _ _ _ => ⟨trivial, trivial⟩
  have hfield : ∀ f, Ensures (fun _ => True) (d.finishField f) fun f' _ =>
      f' = { f with declaring := d.id, type := f'.type } ∧ True :=
    fun _ _ _ => ⟨rfl, trivial⟩
  have hcommit : Ensures (fun _ => True) d.commit fun _ r =>
      ∃ e, r.entryOf? d.id = some e ∧ e.IsDeclaredBy d := by
    refine .bind hsuperclass fun superclass => .of_and fun hsuper => ?_
    refine .bind (.mapM herase d.interfaces) fun interfaces => .of_and fun _ => ?_
    refine .bind (.mapM hfield d.fields) fun fields => .of_and fun hfields => ?_
    refine .bind (.mapM d.isDeclaredBy_finishExecutable d.methods) fun methods =>
      .of_and fun hmethods => ?_
    refine .bind (.mapM d.isDeclaredBy_finishExecutable d.constructors) fun constructors =>
      .of_and fun hconstructors => ?_
    exact fun r _ => ⟨_, (Registry.entryOf?_register _ _ _ _).trans (if_pos rfl),
      ⟨rfl, rfl, hsuper, rfl, rfl, rfl, hfields, hmethods, hconstructors, rfl⟩⟩
  exact hcommit r trivial

theorem forall₂_imp_of_mem {α β : Type} {R R' : α → β → Prop} {l : List α} {m : List β}
    (h : List.Forall₂ R l m) (himp : ∀ a ∈ l, ∀ b, R a b → R' a b) : List.Forall₂ R' l m :=
  ((List.forall₂_and_left (p := (· ∈ l)) l m).2 ⟨fun _ ha => ha, h⟩).imp
    fun a b hab => himp a hab.1 b hab.2

/-- What is known of recorded classes need only be turned round for the types of the draft. -/
theorem Records.imp_of_mem {d : Draft} {e : ClassEntry} {R R' : TypeExpr → ClassId → Prop}
    (h : d.Records e R) (hR : ∀ t ∈ d.types, ∀ c, R t c → R' t c) : d.Records e R' := by
  have hexecutable : ∀ m ∈ d.methods ++ d.constructors, ∀ m' : Executable,
      m.Records m' R → m.Records m' R' := by
    intro m hm m' hrecords
    have hmem : ∀ t ∈ m.genericReturn :: m.genericParams, t ∈ d.types := fun t ht =>
      List.mem_append_right _ (List.mem_flatMap.2 ⟨m, hm, ht⟩)
    exact ⟨forall₂_imp_of_mem hrecords.params fun t ht =>
        hR t (hmem t (List.mem_cons_of_mem _ ht)),
      fun hunknown => hR _ (hmem _ List.mem_cons_self) _ (hrecords.returns hunknown)⟩
  refine ⟨fun t ht => ?_, forall₂_imp_of_mem h.interfaces fun t ht => hR t ?_,
    forall₂_imp_of_mem h.fields fun f hf f' => hR f.genericType ?_ f'.type,
    forall₂_imp_of_mem h.methods fun m hm => hexecutable m (List.mem_append_left _ hm),
    forall₂_imp_of_mem h.constructors fun m hm => hexecutable m (List.mem_append_right _ hm)⟩
  · obtain ⟨c, hc, htc⟩ := h.superclass t ht
    exact ⟨c, hc, hR t (by simp [types, ht]) c htc⟩
  · simp [types, ht]
  · have hmem : f.genericType ∈ d.fields.map FieldDecl.genericType := List.mem_map_of_mem hf
    simp only [types, List.mem_append]
    exact .inl (.inr hmem)

end Draft

/-! ### Bounds -/

namespace Registry

variable {r r' : Registry} {c : ClassId} {e : ClassEntry}

/-- The variables that registered bounds come to are those of registered classes. -/
def IsClosed (r : Registry) : Prop :=
  ∀ v w : TypeVar, v.Below r.types.boundOf w → (r.entryOf? w.owner).isSome = true

theorem isClosed_initial : initial.IsClosed := by
  have hall : ∀ x ∈ initial.entries.toList, ∀ p ∈ x.2.typeParams, p.bound.headVar? = none := by
    decide +kernel
  intro v w hvw
  obtain ⟨x, hx, -, p, hp, hhead⟩ := exists_of_below hvw
  rw [hall x hx p hp] at hhead
  cases hhead

theorem Grows.isSome (h : r.Grows r') (hc : (r.entryOf? c).isSome = true) :
    (r'.entryOf? c).isSome = true := by
  obtain ⟨e, he⟩ := Option.isSome_iff_exists.1 hc
  rw [h.entryOf? he]
  rfl

theorem IsClosed.adds (h : r.IsClosed) (hadds : r.Adds r') : r'.IsClosed := by
  intro v w hvw
  rw [hadds.boundOf] at hvw
  exact hadds.grows.isSome (h v w hvw)

theorem adds_reserve (hr : r.Coherent) : r.Adds (reserve r).2 :=
  ⟨r.grows_reserve, hr.reserve, fun _ hc => ⟨hc.1.of_le (Nat.le_succ _), hc.2⟩, rfl⟩

/-- Asking for array classes brings in nothing else. -/
theorem AddsArrays.entryOf?_cases (h : r.AddsArrays r') (he : r'.entryOf? c = some e) :
    r.entryOf? c = some e ∨ ∃ k name, e = .array k name := by
  induction h with
  | refl => exact .inl he
  | @tail s _ _ hstep ih =>
    obtain ⟨k, rfl⟩ := hstep
    rcases s.arrayOf_cases k with hsame | hnew
    · rw [hsame] at he
      exact ih he
    · rw [hnew, entryOf?_recordArray, entryOf?_register] at he
      split_ifs at he
      · exact .inr ⟨k, s.name k, (Option.some.inj he).symm⟩
      · exact ih he

end Registry

/-- A draft that mentions no type variables is legal at any time. -/
theorem Draft.isLegal_of_headVar? {d : Draft} (r : Registry)
    (h : ∀ t ∈ d.types ++ d.typeParams.map TypeParam.bound, t.headVar? = none) : d.IsLegal r where
  known t ht v hv := by
    rw [h t ht] at hv
    cases hv
  acyclic t ht v := by
    rintro ⟨w, hw, -⟩
    rw [h t (List.mem_append_left _ ht)] at hw
    cases hw

namespace Draft.IsLegal

variable {r : Registry} {d : Draft} {t : TypeExpr} {u v w : TypeVar}

/-- The variable that bounds the draft's own ones is one that the draft mentions. -/
theorem known_of_below (h : d.IsLegal r) (hclosed : r.IsClosed)
    (hvw : v.Below (d.bounds r.types.boundOf) w) :
    w.owner = d.id ∨ (r.entryOf? w.owner).isSome = true := by
  obtain ⟨b, hb, hhead⟩ := TypeVar.below_iff.1 hvw
  unfold bounds at hb
  split_ifs at hb
  · obtain ⟨p, hp, rfl⟩ := Option.map_eq_some_iff.1 hb
    refine h.known p.bound (List.mem_append_right _ ?_) w hhead
    exact List.mem_map_of_mem (List.mem_of_getElem? hp)
  · exact .inr (hclosed v w (TypeVar.below_iff.2 ⟨b, hb, hhead⟩))

theorem known_of_reaches (h : d.IsLegal r) (hclosed : r.IsClosed) (ht : t ∈ d.types)
    (hv : t.Reaches (d.bounds r.types.boundOf) v) :
    v.owner = d.id ∨ (r.entryOf? v.owner).isSome = true := by
  obtain ⟨u, hhead, huv⟩ := hv
  rcases Relation.ReflTransGen.cases_tail huv with rfl | ⟨x, -, hxv⟩
  · exact h.known t (List.mem_append_left _ ht) v hhead
  · exact h.known_of_below hclosed hxv

/-- From a registered class bounds lead to registered classes only. -/
theorem isSome_of_leadsTo (hclosed : r.IsClosed) (hnew : r.entryOf? d.id = none)
    (hu : (r.entryOf? u.owner).isSome = true) (huw : u.LeadsTo (d.bounds r.types.boundOf) w) :
    (r.entryOf? w.owner).isSome = true := by
  have hstep : ∀ {v w : TypeVar}, (r.entryOf? v.owner).isSome = true →
      v.Below (d.bounds r.types.boundOf) w → (r.entryOf? w.owner).isSome = true := by
    intro v w hv hvw
    have hforeign : v.owner ≠ d.id := by
      intro hown
      rw [hown, hnew] at hv
      cases hv
    unfold TypeVar.Below bounds at hvw
    rw [if_neg hforeign] at hvw
    exact hclosed v w hvw
  induction huw with
  | single huw => exact hstep hu huw
  | tail _ hvw ih => exact hstep ih hvw

/-- No variable of another class leads back to the draft. -/
theorem not_leadsBack (h : d.IsLegal r) (hclosed : r.IsClosed) (hnew : r.entryOf? d.id = none)
    (ht : t ∈ d.types) (w : TypeVar) : ¬d.LeadsBack (d.bounds r.types.boundOf) t w := by
  rintro ⟨u, hu, hforeign, huw, hown⟩
  have hregistered : (r.entryOf? u.owner).isSome = true :=
    (h.known_of_reaches hclosed ht hu).resolve_left hforeign
  have hw := isSome_of_leadsTo hclosed hnew hregistered huw
  rw [hown, hnew] at hw
  cases hw

/-- A legal commit leaves the registry closed. -/
theorem isClosed_commit (h : d.IsLegal r) (hclosed : r.IsClosed) (hr : r.Coherent)
    (hids : (d.commit r).2.HasFreshIds) (hgrows : r.Grows (d.commit r).2) :
    (d.commit r).2.IsClosed := by
  intro v w hvw
  rw [boundOf_commit hr hids] at hvw
  rcases h.known_of_below hclosed hvw with hown | hregistered
  · obtain ⟨e, he, -⟩ := d.exists_isDeclaredBy_commit r
    rw [hown, he]
    rfl
  · exact hgrows.isSome hregistered

end Draft.IsLegal

/-! ### Runs -/

namespace Registration

variable {g g' : Registration} {drafts : List Draft} {d : Draft} {c : ClassId} {e : ClassEntry}

/-- What can come of a new registry by committing drafts, the last one first, each when it is
legal. -/
inductive HasDeclared : List Draft → Registration → Prop where
  /-- Nothing is declared at the start. -/
  | new : HasDeclared [] ⟨Registry.initial, []⟩
  /-- A draft is committed when it is legal. -/
  | commit {drafts : List Draft} {r : Registry} {before after : List Draft} {d : Draft}
    (h : HasDeclared drafts ⟨r, before ++ d :: after⟩) (hd : d.IsLegal r) :
    HasDeclared (d :: drafts) ⟨(d.commit r).2, before ++ after⟩
  /-- Whatever else happens declares nothing. -/
  | other {drafts : List Draft} {g g' : Registration} (h : HasDeclared drafts g)
    (hstep : g.Step g') (hnot : ¬g.IsCommit g') : HasDeclared drafts g'

/-- All but a commit brings in array classes at most. -/
theorem Step.adds_of_not_isCommit (h : g.Step g') (hnot : ¬g.IsCommit g') (hg : g.Fresh)
    (hids : g'.registry.HasFreshIds) :
    g.registry.Adds g'.registry ∧ ∀ c e, g'.registry.entryOf? c = some e →
      g.registry.entryOf? c = some e ∨ ∃ k name, e = .array k name := by
  cases h with
  | start r drafts hkind name => exact ⟨Registry.adds_reserve hg.registry, fun _ _ => .inl⟩
  | edit | abandon => exact ⟨.refl hg.registry, fun _ _ => .inl⟩
  | commit r before after d => exact absurd ⟨r, before, after, d, rfl, rfl⟩ hnot
  | arrayOf r drafts k =>
    have hadds : r.AddsArrays (Registry.arrayOf k r).2 := .single ⟨k, rfl⟩
    exact ⟨hadds.adds hg.registry hids, fun _ _ => hadds.entryOf?_cases⟩
  | erase r drafts t =>
    have hadds := Registry.ensures_erase r t r .refl
    exact ⟨hadds.adds hg.registry hids, fun _ _ => hadds.entryOf?_cases⟩

namespace HasDeclared

theorem reachable (h : g.HasDeclared drafts) : g.Reachable := by
  induction h with
  | new => exact .refl
  | commit _ _ ih => exact ih.tail (.commit _ _ _ _)
  | other _ hstep _ ih => exact ih.tail hstep

/-- A class may be started, declared and committed at one go. -/
theorem declare {r : Registry} {kind : Kind} {name : String} (h : HasDeclared drafts ⟨r, []⟩)
    (hkind : kind = .concrete ∨ kind = .interface)
    (hedits : Relation.ReflTransGen Draft.Edit (Draft.start kind name r).1 d)
    (hd : d.IsLegal (Registry.reserve r).2) :
    HasDeclared (d :: drafts) ⟨(d.commit (Registry.reserve r).2).2, []⟩ := by
  have hopen : HasDeclared drafts ⟨(Registry.reserve r).2, [] ++ d :: []⟩ := by
    clear hd
    induction hedits with
    | refl =>
      exact .other h (.start r [] hkind name) fun hcommit => absurd hcommit.length_drafts (by simp)
    | tail _ hedit ih =>
      exact .other ih (.edit _ [] [] hedit) fun hcommit => absurd hcommit.length_drafts (by simp)
  exact .commit hopen hd

theorem isClosed (h : g.HasDeclared drafts) (hids : g.registry.HasFreshIds) :
    g.registry.IsClosed := by
  induction h with
  | new => exact Registry.isClosed_initial
  | @commit drafts r before after d h hd ih =>
    have hids' : r.HasFreshIds := hids.of_le (r.reserved_commit_le d)
    have hfresh := h.reachable.fresh hids'
    exact hd.isClosed_commit (ih hids') hfresh.registry hids
      (h.reachable.grows_of_run (.single (.commit r before after d)) hids)
  | other h hstep hnot ih =>
    have hids' := hids.of_le hstep.reserved_le
    exact (ih hids').adds (hstep.adds_of_not_isCommit hnot (h.reachable.fresh hids') hids).1

/-- **The entries of a registry** are those of the types every host provides, of array classes, and
of the classes of the drafts. -/
theorem entryOf?_cases (h : g.HasDeclared drafts) (hids : g.registry.HasFreshIds)
    (he : g.registry.entryOf? c = some e) :
    c.isReserved = true ∨ (∃ k name, e = .array k name) ∨ ∃ d ∈ drafts, d.id = c := by
  induction h with
  | new =>
    left
    rw [ClassId.isReserved, decide_eq_true_iff]
    exact Registry.coherent_initial.numbered c e he
  | @commit drafts r before after d h hd ih =>
    obtain ⟨r', e', hadds, hcommit, -⟩ := d.exists_commit_eq r
    rw [hcommit] at hids he
    rw [Registry.entryOf?_register] at he
    split_ifs at he with hc
    · exact .inr (.inr ⟨d, List.mem_cons_self, hc⟩)
    · rcases hadds.entryOf?_cases he with hold | harray
      · rcases ih (hids.of_le hadds.reserved_le) hold with hc | harray | ⟨d', hd', hid⟩
        · exact .inl hc
        · exact .inr (.inl harray)
        · exact .inr (.inr ⟨d', List.mem_cons_of_mem _ hd', hid⟩)
      · exact .inr (.inl harray)
  | other h hstep hnot ih =>
    have hids' := hids.of_le hstep.reserved_le
    have hadds := hstep.adds_of_not_isCommit hnot (h.reachable.fresh hids') hids
    rcases hadds.2 c e he with hold | harray
    · exact ih hids' hold
    · exact .inr (.inl harray)

/-- Each of the drafts was committed at some time. -/
theorem exists_commit (h : g.HasDeclared drafts) (hd : d ∈ drafts) :
    ∃ (earlier : List Draft) (r : Registry) (before after : List Draft),
      HasDeclared earlier ⟨r, before ++ d :: after⟩ ∧ d.IsLegal r ∧
        Relation.ReflTransGen Step ⟨(d.commit r).2, before ++ after⟩ g := by
  induction h with
  | new => cases hd
  | @commit drafts r before after d' h hlegal ih =>
    rcases List.mem_cons.1 hd with rfl | hd
    · exact ⟨drafts, r, before, after, h, hlegal, .refl⟩
    · obtain ⟨earlier, r', before', after', h', hlegal', hrun⟩ := ih hd
      exact ⟨earlier, r', before', after', h', hlegal', hrun.tail (.commit _ _ _ _)⟩
  | other _ hstep _ ih =>
    obtain ⟨earlier, r', before', after', h', hlegal', hrun⟩ := ih hd
    exact ⟨earlier, r', before', after', h', hlegal', hrun.tail hstep⟩

/-- **The entry of a draft.**  It says what the draft declares, and its recorded classes are what
the types of the draft erase to in the registry as it is. -/
theorem exists_entry (h : g.HasDeclared drafts) (hids : g.registry.HasFreshIds)
    (hd : d ∈ drafts) :
    (d.id.isReserved = false ∧ d.kind.isArray = false) ∧
      ∃ e, g.registry.entryOf? d.id = some e ∧ e.IsDeclaredBy d ∧ d.Records e fun t c =>
        ∃ b k, t.ErasesTo g.registry.types.boundOf b k ∧ g.registry.IsArrays k b c := by
  obtain ⟨earlier, r, before, after, hbefore, hlegal, hrun⟩ := h.exists_commit hd
  -- ids had not run out at the commit
  have hidsCommit : (d.commit r).2.HasFreshIds := hids.of_le (reserved_le_of_run hrun)
  have hids' : r.HasFreshIds := hidsCommit.of_le (r.reserved_commit_le d)
  have hfresh := hbefore.reachable.fresh hids'
  have hvacant : r.IsVacant d.id := hfresh.drafts d (by simp)
  have hclosed := hbefore.isClosed hids'
  have hcommitted : Reachable ⟨(d.commit r).2, before ++ after⟩ :=
    hbefore.reachable.tail (.commit r before after d)
  have hcommit : r.Grows (d.commit r).2 :=
    hbefore.reachable.grows_of_run (.single (.commit r before after d)) hidsCommit
  have hgrows := hcommitted.grows_of_run hrun hids
  obtain ⟨e, he, hdeclared⟩ := d.exists_isDeclaredBy_commit r
  obtain ⟨e', he', hrecords⟩ := d.exists_records_isArrays r
  obtain rfl := Option.some.inj (he.symm.trans he')
  refine ⟨(hbefore.reachable.sound hids').drafts d (by simp), e, hgrows.entryOf? he, hdeclared,
    hrecords.imp_of_mem fun t ht c hc => ?_⟩
  -- the bounds that the type reaches come to an end, and none of them leads back to the draft
  obtain ⟨rank, hrank⟩ := TypeExpr.exists_ranked (hlegal.acyclic t ht)
  have hhead : ∀ v, t.headVar? = some v → t.Reaches (d.bounds r.types.boundOf) v :=
    fun v hv => ⟨v, hv, .refl⟩
  obtain ⟨b, k, hto⟩ := TypeExpr.exists_erasesTo hrank hhead
  have hdraft : d.ErasesTo r.types.boundOf t b k :=
    Draft.erasesTo_of_not_leadsBack hto (hlegal.not_leadsBack hclosed hvacant.2 ht)
  have harrays := hc hfresh.registry hvacant hidsCommit hrank hhead hdraft
  -- they are the same ever after
  refine ⟨b, k, hto.congr fun v hv => ?_, harrays.of_grows hgrows⟩
  have hregistered : ((d.commit r).2.entryOf? v.owner).isSome = true := by
    rcases hlegal.known_of_reaches hclosed ht hv with hown | hold
    · rw [hown, he]
      rfl
    · exact hcommit.isSome hold
  rw [hgrows.boundOf hregistered, Draft.boundOf_commit hfresh.registry hidsCommit]

/-- What an array class is registered with, but for the name. -/
theorem exists_array (h : g.HasDeclared drafts) (hids : g.registry.HasFreshIds) {k : ClassId}
    (ha : g.registry.array? k = some c) (hc : c.isReserved = false) :
    ∃ name, g.registry.entryOf? c = some (.array k name) := by
  obtain ⟨e, he, hkind⟩ := (h.reachable.fresh hids).registry.exists_entry_of_array? ha
  rcases h.entryOf?_cases hids he with hreserved | ⟨k', name, rfl⟩ | ⟨d, hd, rfl⟩
  · rw [hc] at hreserved
    cases hreserved
  · obtain rfl : k' = k := Kind.array.inj hkind
    exact ⟨name, he⟩
  · obtain ⟨⟨-, hnot⟩, e', he', hdraft, -⟩ := h.exists_entry hids hd
    obtain rfl := Option.some.inj (he.symm.trans he')
    rw [← hdraft.kind, hkind] at hnot
    cases hnot

/-- Apart from the types every host provides, array classes and the classes of the drafts are
registered, and no others. -/
theorem isSome_entryOf?_iff (h : g.HasDeclared drafts) (hids : g.registry.HasFreshIds)
    (hc : c.isReserved = false) : (g.registry.entryOf? c).isSome = true ↔
      (∃ k, g.registry.array? k = some c) ∨ ∃ d ∈ drafts, d.id = c := by
  constructor
  · intro hsome
    obtain ⟨e, he⟩ := Option.isSome_iff_exists.1 hsome
    rcases h.entryOf?_cases hids he with hreserved | ⟨k, name, rfl⟩ | hdraft
    · rw [hc] at hreserved
      cases hreserved
    · have hfresh := h.reachable.fresh hids
      exact .inl ⟨k, (hfresh.registry.arrays k c).2 (Registry.kind_of_entryOf? he)⟩
    · exact .inr hdraft
  · rintro (⟨k, hk⟩ | ⟨d, hd, rfl⟩)
    · obtain ⟨name, he⟩ := h.exists_array hids hk hc
      rw [he]
      rfl
    · obtain ⟨-, e, he, -⟩ := h.exists_entry hids hd
      rw [he]
      rfl

end HasDeclared

end Registration

end ScriptSurface
