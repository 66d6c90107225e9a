import ScriptSurface.Proofs.Registry.DraftErasure

/-!
# What a commit records

A commit records a class for every type that a draft declares: the superclass and the interfaces,
the types of fields, and the parameters and return types of methods and constructors.  Each class is
what the draft erases the type to at some point of the commit (`Draft.exists_commit_records`), and
`Draft.Records` goes through all of them at once.

After the commit the registry erases the same types itself.  `Draft.recorded_eq_erasure_iff` says
when it finds the class that was recorded, then and for ever after: exactly if no variable of
another class that the type reaches leads back to a variable of the draft whose erasure is anything
but the universal base type.  In `knotDraft` one does.
-/

namespace ScriptSurface

open Registry (AddsArrays)

/-! ### Recorded classes -/

/-- The classes recorded of a callable go with its declared types; an unknown return type counts if
it came with the universal base type. -/
structure Executable.Records (e e' : Executable) (R : TypeExpr → ClassId → Prop) : Prop where
  /-- The parameters, by which calls are dispatched. -/
  params : List.Forall₂ R e.genericParams e'.params
  /-- The return type. -/
  returns : (e.genericReturn.isUnknown = true → e.returns = ClassId.object) →
    R e.genericReturn e'.returns

/-- The classes recorded in an entry go with the types that a draft declares. -/
structure Draft.Records (d : Draft) (e : ClassEntry) (R : TypeExpr → ClassId → Prop) : Prop where
  /-- The superclass. -/
  superclass : ∀ t, d.superclass = some t → ∃ c, e.superclass = some c ∧ R t c
  /-- The interfaces. -/
  interfaces : List.Forall₂ R d.interfaces e.interfaces
  /-- The fields. -/
  fields : List.Forall₂ (fun f f' => R f.genericType f'.type) d.fields e.fields
  /-- The methods. -/
  methods : List.Forall₂ (fun m m' => m.Records m' R) d.methods e.methods
  /-- The constructors. -/
  constructors : List.Forall₂ (fun m m' => m.Records m' R) d.constructors e.constructors

theorem Executable.Records.mono {e e' : Executable} {R R' : TypeExpr → ClassId → Prop}
    (h : e.Records e' R) (hR : ∀ t c, R t c → R' t c) : e.Records e' R' :=
  ⟨h.params.imp hR, fun hunknown => hR _ _ (h.returns hunknown)⟩

theorem Draft.Records.mono {d : Draft} {e : ClassEntry} {R R' : TypeExpr → ClassId → Prop}
    (h : d.Records e R) (hR : ∀ t c, R t c → R' t c) : d.Records e R' where
  superclass t ht := by
    obtain ⟨c, hc, htc⟩ := h.superclass t ht
    exact ⟨c, hc, hR t c htc⟩
  interfaces := h.interfaces.imp hR
  fields := h.fields.imp fun _ _ => hR _ _
  methods := h.methods.imp fun _ _ hm => hm.mono hR
  constructors := h.constructors.imp fun _ _ hm => hm.mono hR

/-! ### The commit -/

/-- What a computation that asks for array classes makes of each entry of a list, where it does not
matter what other array classes were asked for before and after. -/
theorem Registry.AddsArrays.mapM {α β : Type} {f : α → StateM Registry β}
    {T : Registry → Registry → α → β → Prop}
    (hT : ∀ {r₀ r s s₁ a b}, AddsArrays r₀ r → AddsArrays s s₁ → T r s a b → T r₀ s₁ a b)
    (hf : ∀ a r, AddsArrays r (f a r).2 ∧ T r (f a r).2 a (f a r).1) (l : List α) (r : Registry) :
    AddsArrays r (l.mapM f r).2 ∧ List.Forall₂ (T r (l.mapM f r).2) l (l.mapM f r).1 := by
  induction l generalizing r with
  | nil => exact ⟨.refl, .nil⟩
  | cons a l ih =>
    obtain ⟨hadds, ha⟩ := hf a r
    obtain ⟨hmore, hl⟩ := ih (f a r).2
    rw [List.mapM_cons]
    exact ⟨hadds.trans hmore, .cons (hT .refl hmore ha) (hl.imp fun _ _ => hT hadds .refl)⟩

namespace Draft

variable {d : Draft} {r₀ r s s₁ : Registry} {t : TypeExpr} {c : ClassId}

/-- The draft erases the type to the class at some point between two registries. -/
def ErasesBetween (d : Draft) (r s : Registry) (t : TypeExpr) (c : ClassId) : Prop :=
  ∃ r', AddsArrays r r' ∧ (d.erase t r').1 = c ∧ AddsArrays (d.erase t r').2 s

theorem ErasesBetween.mono (h : d.ErasesBetween r s t c) (hr : AddsArrays r₀ r)
    (hs : AddsArrays s s₁) : d.ErasesBetween r₀ s₁ t c := by
  obtain ⟨r', hr', hc, hs'⟩ := h
  exact ⟨r', hr.trans hr', hc, hs'.trans hs⟩

theorem erasesBetween_erase (d : Draft) (t : TypeExpr) (r : Registry) :
    AddsArrays r (d.erase t r).2 ∧ d.ErasesBetween r (d.erase t r).2 t (d.erase t r).1 :=
  ⟨(d.ensures_erase t r .refl).2, r, .refl, rfl, .refl⟩

theorem erasesBetween_finishField (d : Draft) (f : FieldDecl) (r : Registry) :
    AddsArrays r (d.finishField f r).2 ∧
      d.ErasesBetween r (d.finishField f r).2 f.genericType (d.finishField f r).1.type :=
  d.erasesBetween_erase f.genericType r

theorem erasesBetween_finishExecutable (d : Draft) (e : Executable) (r : Registry) :
    AddsArrays r (d.finishExecutable e r).2 ∧
      e.Records (d.finishExecutable e r).1 (d.ErasesBetween r (d.finishExecutable e r).2) := by
  obtain ⟨hparams, hp⟩ := AddsArrays.mapM (f := d.erase) (T := d.ErasesBetween)
    (fun hr hs h => h.mono hr hs) d.erasesBetween_erase e.genericParams r
  unfold finishExecutable
  cases hunknown : e.genericReturn.isUnknown with
  | true =>
    have hreturn : e.genericReturn = .unknown := by
      cases hg : e.genericReturn <;> simp_all [TypeExpr.isUnknown]
    refine ⟨hparams, hp, fun hobject => ?_⟩
    rw [hreturn]
    exact ⟨_, hparams, (hobject hunknown).symm, .refl⟩
  | false =>
    obtain ⟨hreturns, hret⟩ :=
      d.erasesBetween_erase e.genericReturn (e.genericParams.mapM d.erase r).2
    exact ⟨hparams.trans hreturns, hp.imp fun _ _ h => h.mono .refl hreturns,
      fun _ => hret.mono hparams .refl⟩

theorem erasesBetween_eraseSuperclass (d : Draft) (r : Registry) :
    AddsArrays r (d.eraseSuperclass r).2 ∧ ∀ t, d.superclass = some t →
      ∃ c, (d.eraseSuperclass r).1 = some c ∧ d.ErasesBetween r (d.eraseSuperclass r).2 t c := by
  unfold eraseSuperclass
  cases d.superclass with
  | none =>
    refine ⟨.refl, fun t ht => ?_⟩
    cases ht
  | some parent =>
    obtain ⟨hadds, hparent⟩ := d.erasesBetween_erase parent r
    refine ⟨hadds, fun t ht => ?_⟩
    cases ht
    exact ⟨_, rfl, hparent⟩

/-- A commit registers, after asking for array classes, an entry that records what the draft erases
its types to. -/
theorem exists_commit_records (d : Draft) (r : Registry) :
    ∃ r' e, AddsArrays r r' ∧ d.commit r = (d.id, r'.register d.id e) ∧
      d.Records e (d.ErasesBetween r r') := by
  obtain ⟨hsuper, hs⟩ := d.erasesBetween_eraseSuperclass r
  obtain ⟨hifaces, hi⟩ := AddsArrays.mapM (f := d.erase) (T := d.ErasesBetween)
    (fun hr hs h => h.mono hr hs) d.erasesBetween_erase d.interfaces (d.eraseSuperclass r).2
  obtain ⟨hfields, hf⟩ := AddsArrays.mapM (f := d.finishField)
    (T := fun r s f f' => d.ErasesBetween r s f.genericType f'.type)
    (fun hr hs h => h.mono hr hs) d.erasesBetween_finishField d.fields
    (d.interfaces.mapM d.erase (d.eraseSuperclass r).2).2
  have hexecutables := AddsArrays.mapM (f := d.finishExecutable)
    (T := fun r s m m' => m.Records m' (d.ErasesBetween r s))
    (fun hr hs h => h.mono fun _ _ h => h.mono hr hs) d.erasesBetween_finishExecutable
  obtain ⟨hmethods, hm⟩ := hexecutables d.methods (d.fields.mapM d.finishField _).2
  obtain ⟨hctors, hc⟩ := hexecutables d.constructors (d.methods.mapM d.finishExecutable _).2
  -- what each of the five stages leaves behind and finds
  have hafter := hmethods.trans hctors
  have hafter' := hfields.trans hafter
  have hbefore := hsuper.trans hifaces
  have hbefore' := hbefore.trans hfields
  refine ⟨_, _, hbefore'.trans hafter, rfl, fun t ht => ?_, ?_, ?_, ?_, ?_⟩
  · obtain ⟨c, hc, htc⟩ := hs t ht
    exact ⟨c, hc, htc.mono .refl (hifaces.trans hafter')⟩
  · exact hi.imp fun _ _ h => h.mono hsuper hafter'
  · exact hf.imp fun _ _ h => h.mono hbefore hafter
  · exact hm.imp fun _ _ h => h.mono fun _ _ h => h.mono hbefore' hctors
  · exact hc.imp fun _ _ h => h.mono fun _ _ h => h.mono (hbefore'.trans hmethods) .refl

/-! ### After the commit -/

/-- Between registries with the same bounds, a type was erased to the arrays that the draft's bounds
lead to. -/
theorem ErasesBetween.isArrays {S : Set TypeVar} {rank : TypeVar → ℕ} {b : ClassId} {k : ℕ}
    (h : d.ErasesBetween r s t c) (hr : r.Coherent) (hids : s.HasFreshIds)
    (hvacant : r.IsVacant d.id) (hrank : TypeVar.Ranked (d.bounds r.types.boundOf) S rank)
    (ht : ∀ v, t.headVar? = some v → v ∈ S) (hto : d.ErasesTo r.types.boundOf t b k) :
    s.IsArrays k b c := by
  obtain ⟨r', hbefore, rfl, hafter⟩ := h
  have hids' : (d.erase t r').2.HasFreshIds := hids.of_le hafter.reserved_le
  have hadds : r.Adds r' :=
    hbefore.adds hr (hids'.of_le (d.ensures_erase t r' .refl).2.reserved_le)
  rw [← hadds.boundOf] at hrank hto
  have hown : ∀ v : TypeVar, v.owner = d.id → r'.types.boundOf v = none := fun v hv =>
    Registry.boundOf_eq_none (hadds.vacant _ hvacant).2 hv
  have herase := d.erase_eq hrank hown ht hto
  rw [herase] at hids' hafter ⊢
  have hcoherent := ((Registry.addsArrays_arraysOf r' k b).adds hadds.coherent hids').coherent
  have harrays := Registry.isArrays_arraysOf hadds.coherent hids'
  exact harrays.of_grows (hafter.adds hcoherent hids).grows

/-- What a commit records of a type are the arrays that the draft's bounds lead to. -/
theorem exists_records_isArrays (d : Draft) (r : Registry) :
    ∃ e, (d.commit r).2.entryOf? d.id = some e ∧ d.Records e fun t c =>
      r.Coherent → r.IsVacant d.id → (d.commit r).2.HasFreshIds →
        ∀ {S rank b k}, TypeVar.Ranked (d.bounds r.types.boundOf) S rank →
          (∀ v, t.headVar? = some v → v ∈ S) → d.ErasesTo r.types.boundOf t b k →
          (d.commit r).2.IsArrays k b c := by
  obtain ⟨r', e, hadds, hcommit, hrecords⟩ := d.exists_commit_records r
  rw [hcommit]
  refine ⟨e, (Registry.entryOf?_register _ _ _ _).trans (if_pos rfl), hrecords.mono ?_⟩
  intro t c hc hr hvacant hids S rank b k hrank ht hto
  have hnew : r'.entryOf? d.id = none := ((hadds.adds hr hids).vacant _ hvacant).2
  exact (hc.isArrays hr hids hvacant hrank ht hto).of_grows (Registry.grows_register hnew e)

/-- After the commit, the bounds are the draft's own ones and those of before. -/
theorem boundOf_commit (hr : r.Coherent) (hids : (d.commit r).2.HasFreshIds) :
    (d.commit r).2.types.boundOf = d.bounds r.types.boundOf := by
  obtain ⟨r', e, hadds, hcommit, -, hparams, -⟩ := d.exists_commit_eq r
  rw [hcommit] at hids ⊢
  have hadds : r.Adds r' := hadds.adds hr hids
  funext v
  rw [Registry.boundOf_of_entryOf? (r'.entryOf?_register d.id e), bounds, hparams, hadds.boundOf]
  rfl

end Draft

/-! ### Erasures later on -/

namespace Registry.Grows

variable {r r' : Registry} {S : Set TypeVar} {rank : TypeVar → ℕ} {t : TypeExpr} {v : TypeVar}
  {c : ClassId} {k : ℕ}

/-- However a registry has grown, a type still erases to the arrays that the bounds led to. -/
theorem erase_eq (h : r.Grows r') (hrank : TypeVar.Ranked r.types.boundOf S rank)
    (hknown : ∀ v ∈ S, (r.entryOf? v.owner).isSome = true)
    (ht : ∀ v, t.headVar? = some v → v ∈ S) (hto : t.ErasesTo r.types.boundOf c k) :
    Registry.erase t r' = arraysOf Registry.arrayOf k c r' := by
  have hbound : ∀ v ∈ S, r'.types.boundOf v = r.types.boundOf v := fun v hv =>
    h.boundOf (hknown v hv)
  have hrank' : TypeVar.Ranked r'.types.boundOf S rank :=
    hrank.mono fun v hv b hb => (hbound v hv).symm.trans hb
  have hto' : t.ErasesTo r'.types.boundOf c k :=
    hto.congr fun v ⟨u, hu, huv⟩ => hbound v (hrank.mem_of_reflTransGen (ht u hu) huv)
  exact congrFun (TypeExpr.erase_eq hrank' ht Registry.arrayOf hto') r'

theorem erase_var_eq_object_iff (h : r.Grows r') (hrank : TypeVar.Ranked r.types.boundOf S rank)
    (hknown : ∀ v ∈ S, (r.entryOf? v.owner).isSome = true) (hv : v ∈ S)
    (hvk : v.Erases r.types.boundOf c k) (hs : r'.Sound) (hr : r'.Coherent)
    (hids : (arraysOf Registry.arrayOf k c r').2.HasFreshIds) (s : Stamp) :
    (Registry.erase (.var v s) r').1 = ClassId.object ↔
      v.Erases r.types.boundOf ClassId.object 0 := by
  have hhead : ∀ w, (TypeExpr.var v s).headVar? = some w → w ∈ S := by
    rintro w ⟨⟩
    exact hv
  rw [h.erase_eq hrank hknown hhead (TypeExpr.erasesTo_var.2 hvk),
    hs.arraysOf_eq_object_iff hr hids]
  constructor
  · rintro ⟨rfl, rfl⟩
    exact hvk
  · exact fun hobject => (hvk.unique hobject).symm

end Registry.Grows

theorem Registry.exists_of_below {r : Registry} {v w : TypeVar} (h : v.Below r.types.boundOf w) :
    ∃ x ∈ r.entries.toList, x.1 = v.owner ∧ ∃ p ∈ x.2.typeParams, p.bound.headVar? = some w := by
  obtain ⟨b, hb, hhead⟩ := TypeVar.below_iff.1 h
  rw [boundOf_eq] at hb
  obtain ⟨e, he, hparam⟩ := Option.bind_eq_some_iff.1 hb
  obtain ⟨p, hp, rfl⟩ := Option.map_eq_some_iff.1 hparam
  exact ⟨(v.owner, e), (Assoc.mem_toList_iff _).2 he, rfl, p, List.mem_of_getElem? hp, hhead⟩

namespace Draft

variable {r : Registry} {d : Draft} {t : TypeExpr}

/-- Whether the bounds that a type reaches after the commit come to an end, and belong to the draft
or to classes that were registered before. -/
structure Settles (d : Draft) (r : Registry) (t : TypeExpr) : Prop where
  /-- No variable leads to itself. -/
  acyclic : ∀ v, t.Reaches (d.commit r).2.types.boundOf v →
    ¬v.LeadsTo (d.commit r).2.types.boundOf v
  /-- The variables are those of the draft and of registered classes. -/
  known : ∀ v, t.Reaches (d.commit r).2.types.boundOf v →
    v.owner = d.id ∨ (r.entryOf? v.owner).isSome = true

theorem Settles.isSome_entryOf? {e : ClassEntry} {v : TypeVar} (h : d.Settles r t)
    (hgrows : r.Grows (d.commit r).2) (he : (d.commit r).2.entryOf? d.id = some e)
    (hv : t.Reaches (d.commit r).2.types.boundOf v) :
    ((d.commit r).2.entryOf? v.owner).isSome = true := by
  rcases h.known v hv with hown | hold
  · rw [hown, he]
    rfl
  · obtain ⟨e', he'⟩ := Option.isSome_iff_exists.1 hold
    rw [hgrows.entryOf? he']
    rfl

end Draft

/-! ### A bound that comes back -/

/-- A class `A`, under way. -/
def openDraft : Draft := (Draft.start .concrete "A" Registry.initial).1

/-- The first variable of `A`. -/
def ownVar : TypeExpr := .var (.at 16 0) .anonymous

/-- A class `B<U extends T>` where `T` is the first variable of `A`, which is still under way. -/
def backDraft : Draft :=
  ((Draft.start .concrete "B" (Registry.reserve Registry.initial).2).1.addTypeParam .anonymous "U"
    ownVar).2

/-- The variable of `B`. -/
def backVar : TypeExpr := .var (.at 17 0) .anonymous

/-- The registry with `B` in it. -/
def knot : Registry :=
  (backDraft.commit (Registry.reserve (Registry.reserve Registry.initial).2).2).2

/-- The class `A<T extends String>` with a method `m(U, T)`, whose `U` is the variable of `B`. -/
def knotDraft : Draft :=
  (openDraft.addTypeParam .anonymous "T" (.plain ClassId.string .anonymous)).2.addMethod
    (.declareMethod "m" [backVar, ownVar] (.plain ClassId.void .anonymous) 0)

theorem reachable_knot : Registration.Reachable ⟨knot, [] ++ knotDraft :: []⟩ := by
  have hback : Registration.Reachable ⟨knot, [openDraft]⟩ :=
    ((((Relation.ReflTransGen.refl (r := Registration.Step)).tail
      (.start Registry.initial [] (.inl rfl) "A")).tail
      (.start _ [openDraft] (.inl rfl) "B")).tail
      (.edit _ [] [openDraft] (.addTypeParam _ .anonymous "U" ownVar))).tail
      (.commit _ [] [openDraft] backDraft)
  exact (hback.tail (.edit _ [] [] (.addTypeParam _ .anonymous "T" _))).tail
    (.edit _ [] [] (.addMethod _ _))

theorem below_knot {v w : TypeVar} (h : v.Below (knotDraft.commit knot).2.types.boundOf w) :
    v.owner = 17 ∧ w = .at 16 0 := by
  have hentries : ∀ x ∈ (knotDraft.commit knot).2.entries.toList, ∀ p ∈ x.2.typeParams,
      ∀ w ∈ p.bound.headVar?, x.1 = 17 ∧ w = .at 16 0 := by
    decide +kernel
  obtain ⟨x, hx, hv, p, hp, hw⟩ := Registry.exists_of_below h
  exact hv ▸ hentries x hx p hp w hw

theorem eq_of_reaches_knot {v w : TypeVar} {s : Stamp}
    (h : (TypeExpr.var v s).Reaches (knotDraft.commit knot).2.types.boundOf w) :
    w = v ∨ v.owner = 17 ∧ w = .at 16 0 := by
  obtain ⟨u, ⟨⟩, hvw⟩ := h
  induction hvw with
  | refl => exact .inl rfl
  | tail _ hstep ih =>
    obtain ⟨hu, rfl⟩ := below_knot hstep
    rcases ih with rfl | ⟨hv, -⟩
    · exact .inr ⟨hu, rfl⟩
    · exact .inr ⟨hv, rfl⟩

theorem settles_knot {v : TypeVar} (hv : v.owner = 16 ∨ v.owner = 17) (s : Stamp) :
    knotDraft.Settles knot (.var v s) := by
  refine ⟨fun w _ hlead => ?_, fun w hw => ?_⟩
  · -- the first variable of a chain belongs to `B`, the last one to `A`
    obtain ⟨u, hfirst, -⟩ := Relation.TransGen.head'_iff.1 hlead
    obtain ⟨u', -, hlast⟩ := Relation.TransGen.tail'_iff.1 hlead
    have hw := (below_knot hfirst).1
    rw [(below_knot hlast).2] at hw
    exact absurd hw (by decide)
  · have hback : (knot.entryOf? 17).isSome = true := by decide +kernel
    rcases eq_of_reaches_knot hw with rfl | ⟨-, rfl⟩
    · rcases hv with hv | hv
      · exact .inl hv
      · exact .inr (hv ▸ hback)
    · exact .inl rfl

theorem leadsBack_knot : knotDraft.LeadsBack (knotDraft.commit knot).2.types.boundOf backVar
    (.at 16 0) := by
  refine ⟨.at 17 0, ⟨_, rfl, .refl⟩, by decide, .single ?_, rfl⟩
  show ((knotDraft.commit knot).2.types.boundOf (.at 17 0)).bind TypeExpr.headVar? = _
  decide +kernel

theorem not_leadsBack_knot (w : TypeVar) :
    ¬knotDraft.LeadsBack (knotDraft.commit knot).2.types.boundOf ownVar w := by
  rintro ⟨u, hu, hforeign, -⟩
  rcases eq_of_reaches_knot hu with rfl | ⟨hv, -⟩
  · exact hforeign rfl
  · exact absurd hv (by decide)

theorem hasFreshIds_knot :
    (Registry.erase ownVar (knotDraft.commit knot).2).2.HasFreshIds ∧
      (Registry.erase backVar (knotDraft.commit knot).2).2.HasFreshIds := by
  unfold Registry.HasFreshIds
  decide +kernel

/-- Of `m(U, T)` the classes `Object` and `String` are recorded. -/
theorem records_knot {e : ClassEntry} {R : TypeExpr → ClassId → Prop}
    (he : (knotDraft.commit knot).2.entryOf? knotDraft.id = some e) (h : knotDraft.Records e R) :
    R backVar ClassId.object ∧ R ownVar ClassId.string := by
  have hparams : ((knotDraft.commit knot).2.entryOf? knotDraft.id).map
      (fun e => e.methods.map Executable.params) = some [[ClassId.object, ClassId.string]] := by
    decide +kernel
  rw [he] at hparams
  obtain ⟨m, ms, hm, hp, -⟩ := List.map_eq_cons_iff.1 (Option.some.inj hparams)
  have hmethods := h.methods
  rw [hm] at hmethods
  obtain ⟨hfirst, -⟩ := List.forall₂_cons.1 hmethods
  have hboth : List.Forall₂ R [backVar, ownVar] [ClassId.object, ClassId.string] :=
    hp ▸ hfirst.params
  obtain ⟨hback, hown⟩ := List.forall₂_cons.1 hboth
  exact ⟨hback, (List.forall₂_cons.1 hown).1⟩

namespace Draft

/-! ### The erasures a commit records -/

/-- **The erasures a commit records.**  What a commit records of a declared type is the erasure of
the type right after the commit and at any later time exactly if each variable of the draft that the
type comes back to, by way of a variable of another class, erases to the universal base type. -/
theorem recorded_eq_erasure_iff {r : Registry} {before after : List Draft} {d : Draft}
    (hg : Registration.Reachable ⟨r, before ++ d :: after⟩) :
    ∃ e, (d.commit r).2.entryOf? d.id = some e ∧ d.Records e fun t c =>
      d.Settles r t → ∀ g : Registration,
        Relation.ReflTransGen Registration.Step ⟨(d.commit r).2, before ++ after⟩ g →
        (Registry.erase t g.registry).2.HasFreshIds →
        ((Registry.erase t g.registry).1 = c ↔
          ∀ w, d.LeadsBack (d.commit r).2.types.boundOf t w →
            (Registry.erase (.var w .anonymous) g.registry).1 = ClassId.object) := by
  obtain ⟨e, hentry, hrecords⟩ := d.exists_records_isArrays r
  refine ⟨e, hentry, hrecords.mono fun t c hrecorded hsettles g hrun hids => ?_⟩
  -- ids had not run out at any time
  have hids' : g.registry.HasFreshIds :=
    hids.of_le (Registry.ensures_erase _ t _ .refl).reserved_le
  have hidsCommit : (d.commit r).2.HasFreshIds :=
    hids'.of_le (Registration.reserved_le_of_run hrun)
  have hfresh := hg.fresh (hidsCommit.of_le (r.reserved_commit_le d))
  have hvacant : r.IsVacant d.id := hfresh.drafts d (by simp)
  have hcommitted : Registration.Reachable ⟨(d.commit r).2, before ++ after⟩ :=
    hg.tail (.commit r before after d)
  have hcommit : r.Grows (d.commit r).2 :=
    hg.grows_of_run (.single (.commit r before after d)) hidsCommit
  have hgrows := hcommitted.grows_of_run hrun hids'
  have hreachable : g.Reachable := hcommitted.trans hrun
  have hfresh' := hreachable.fresh hids'
  have hsound := (hreachable.sound hids').registry
  -- what the type erases to along the bounds after the commit
  obtain ⟨rank, hrank⟩ := TypeExpr.exists_ranked hsettles.acyclic
  have hhead : ∀ v, t.headVar? = some v → t.Reaches (d.commit r).2.types.boundOf v :=
    fun v hv => ⟨v, hv, .refl⟩
  have hentries := fun v => hsettles.isSome_entryOf? hcommit hentry (v := v)
  obtain ⟨b, k, hto⟩ := TypeExpr.exists_erasesTo hrank hhead
  have hadds := Registry.addsArrays_arraysOf g.registry k b
  rw [hgrows.erase_eq hrank hentries hhead hto] at hids ⊢
  have harrays := Registry.isArrays_arraysOf hfresh'.registry hids
  -- the variables that it comes back to
  have hvar : ∀ w, t.Reaches (d.commit r).2.types.boundOf w →
      ((Registry.erase (.var w .anonymous) g.registry).1 = ClassId.object ↔
        w.Erases (d.commit r).2.types.boundOf ClassId.object 0) := by
    intro w hw
    obtain ⟨j, hle, hwj⟩ := hto.of_reaches hw
    obtain ⟨i, rfl⟩ := Nat.exists_eq_add_of_le' hle
    have hfewer := Registry.addsArrays_arraysOf_add g.registry i j b
    exact hgrows.erase_var_eq_object_iff hrank hentries hw hwj hsound hfresh'.registry
      (hids.of_le hfewer.reserved_le) .anonymous
  -- what it erased to in the draft
  rw [boundOf_commit hfresh.registry hidsCommit] at hrank hhead hto hvar ⊢
  have hown : ∀ v : TypeVar, v.owner = d.id → r.types.boundOf v = none := fun v hv =>
    Registry.boundOf_eq_none hvacant.2 hv
  have hdraft : ∀ {b' k'}, d.ErasesTo r.types.boundOf t b' k' →
      (arraysOf Registry.arrayOf k b g.registry).2.IsArrays k' b' c := fun hto' =>
    (hrecorded hfresh.registry hvacant hidsCommit hrank hhead hto').of_grows
      (hgrows.trans (hadds.adds hfresh'.registry hids).grows)
  rw [eq_iff_of_isArrays (hsound.addsArrays hadds hids)
    (hadds.adds hfresh'.registry hids).coherent hown hto harrays hdraft]
  exact forall₂_congr fun w hw => (hvar w hw.reaches).symm

/-- Of `m(U, T)` the classes `Object` and `String` are recorded.  `T` erases to `String` ever after,
and so `U` never erases to `Object`. -/
theorem recorded_eq_erasure_iff_knot :
    Registration.Reachable ⟨knot, [] ++ knotDraft :: []⟩ ∧ knotDraft.Settles knot backVar ∧
      knotDraft.Settles knot ownVar ∧
      ((Registry.erase ownVar (knotDraft.commit knot).2).2.HasFreshIds ∧
        (Registry.erase backVar (knotDraft.commit knot).2).2.HasFreshIds) ∧
      ∀ g : Registration,
        Relation.ReflTransGen Registration.Step ⟨(knotDraft.commit knot).2, [] ++ []⟩ g →
        (Registry.erase ownVar g.registry).2.HasFreshIds →
        (Registry.erase backVar g.registry).2.HasFreshIds →
        (Registry.erase ownVar g.registry).1 = ClassId.string ∧
          (Registry.erase backVar g.registry).1 ≠ ClassId.object := by
  have hback := settles_knot (v := .at 17 0) (.inr rfl) .anonymous
  have hown := settles_knot (v := .at 16 0) (.inl rfl) .anonymous
  refine ⟨reachable_knot, hback, hown, hasFreshIds_knot, fun g hrun hids hids' => ?_⟩
  obtain ⟨e, he, hrecords⟩ := recorded_eq_erasure_iff reachable_knot
  obtain ⟨hbackVar, hownVar⟩ := records_knot he hrecords
  have hstring := (hownVar hown g hrun hids).2 fun w hw => absurd hw (not_leadsBack_knot w)
  refine ⟨hstring, fun hobject => ?_⟩
  have hlost := (hbackVar hback g hrun hids').1 hobject _ leadsBack_knot
  exact absurd (hstring.symm.trans hlost) (by decide)

/-- What a commit records is not always the erasure: of `m(U, T)` in `knotDraft` the universal base
type is recorded for `U`, which erases to `String` right after the commit. -/
theorem not_recorded_eq_erasure :
    ¬∀ (r : Registry) (before after : List Draft) (d : Draft),
      Registration.Reachable ⟨r, before ++ d :: after⟩ →
      ∃ e, (d.commit r).2.entryOf? d.id = some e ∧ d.Records e fun t c =>
        d.Settles r t → ∀ g : Registration,
          Relation.ReflTransGen Registration.Step ⟨(d.commit r).2, before ++ after⟩ g →
          (Registry.erase t g.registry).2.HasFreshIds → (Registry.erase t g.registry).1 = c := by
  intro h
  obtain ⟨e, he, hrecords⟩ := h knot [] [] knotDraft reachable_knot
  have hobject := (records_knot he hrecords).1 (settles_knot (v := .at 17 0) (.inr rfl) .anonymous)
    _ .refl hasFreshIds_knot.2
  exact absurd hobject (by decide +kernel)

end Draft

end ScriptSurface
