import ScriptSurface.Proofs.Registry.Declarations
import ScriptSurface.Proofs.Renumbering

/-!
# The same declarations in another order

Classes get their ids in the order in which they are started, and array classes in the order in
which they are first asked for.  So where the same classes are declared in two registries in
different orders, they have different ids (`Registration.Renumbers`).

Apart from that the two registries say the same (`HostTypes.Renumbers`,
`Registration.Renumbers.types`), but for the names of array classes, which go by what was registered
when they were asked for.  For the recorded classes this rests on
`Registration.HasDeclared.exists_entry`: they are what the declared types erase to in the end,
whatever was registered when they were recorded.
-/

namespace ScriptSurface

section Statements

variable (f : Equiv.Perm ClassId)

/-- The two hosts report the same under other ids, but for the names of classes. -/
structure HostTypes.Renumbers (h h' : HostTypes) : Prop where
  /-- The kinds are the same. -/
  kind : ∀ c, h'.kind (f c) = (h.kind c).renumber f
  /-- The superclasses are the same. -/
  superclass : ∀ c, h'.superclass (f c) = (h.superclass c).map f
  /-- The interfaces are the same. -/
  interfaces : ∀ c, h'.interfaces (f c) = (h.interfaces c).map f
  /-- The type parameters are the same. -/
  typeParams : ∀ c, h'.typeParams (f c) = (h.typeParams c).map (TypeParam.renumber f)
  /-- The superclasses as declared are the same. -/
  genericSuperclass : ∀ c,
    h'.genericSuperclass (f c) = (h.genericSuperclass c).map (TypeExpr.renumber f)
  /-- The interfaces as declared are the same. -/
  genericInterfaces : ∀ c,
    h'.genericInterfaces (f c) = (h.genericInterfaces c).map (TypeExpr.renumber f)
  /-- The fields are the same. -/
  fields : ∀ c, h'.fields (f c) = (h.fields c).map (FieldDecl.renumber f)
  /-- The methods are the same. -/
  methods : ∀ c, h'.methods (f c) = (h.methods c).map (Executable.renumber f)
  /-- The constructors are the same. -/
  constructors : ∀ c, h'.constructors (f c) = (h.constructors c).map (Executable.renumber f)
  /-- The prefixes are the same. -/
  strippedPrefixes : ∀ c, h'.strippedPrefixes (f c) = h.strippedPrefixes c

/-- The same classes were declared in two new registries, in any two orders, and the same array
classes were asked for.  The permutation takes a class to the class that comes of the same
declaration, and so to the one of the same name; an array class to that of the same component; and
the types every host provides to themselves. -/
structure Registration.Renumbers (g g' : Registration) : Prop where
  /-- The drafts are the same under other ids. -/
  declared : ∃ drafts drafts', g.HasDeclared drafts ∧ g'.HasDeclared drafts' ∧
    drafts'.Perm (drafts.map (Draft.renumber f))
  /-- The array classes are those of the same components. -/
  array? : ∀ c, g'.registry.array? (f c) = (g.registry.array? c).map f
  /-- The types every host provides keep their ids. -/
  reserved : FixesReserved f
  /-- Ids have not run out in one. -/
  ids : g.registry.HasFreshIds
  /-- Nor have they in the other. -/
  ids' : g'.registry.HasFreshIds

end Statements

/-- The classes that were declared all have names of their own. -/
def Registration.NamesApart (g : Registration) : Prop :=
  ∃ drafts, g.HasDeclared drafts ∧ (drafts.map Draft.name).Nodup

/-! ### Entries under other ids -/

variable {f : Equiv.Perm ClassId}

theorem TypeExpr.renumber_ofClass (hf : FixesReserved f) (s : Stamp) (c : ClassId) :
    (ofClass s c).renumber f = ofClass s (f c) := by
  have hobject : f c = ClassId.object ↔ c = ClassId.object := hf.apply_eq_iff rfl
  unfold ofClass
  by_cases hc : c = ClassId.object
  · rw [if_pos hc, if_pos (hobject.2 hc)]
    rfl
  · rw [if_neg hc, if_neg (mt hobject.1 hc)]
    rfl

namespace ClassEntry

theorem renumber_bare (hf : FixesReserved f) (name : String) (kind : Kind)
    (superclass : Option ClassId) :
    (bare name kind superclass).renumber f = bare name (kind.renumber f) (superclass.map f) := by
  have hgeneric : (superclass.map (TypeExpr.ofClass .anonymous)).map (TypeExpr.renumber f)
      = (superclass.map f).map (TypeExpr.ofClass .anonymous) := by
    cases superclass with
    | none => rfl
    | some c => exact congrArg some (TypeExpr.renumber_ofClass hf .anonymous c)
  unfold bare renumber
  dsimp only
  rw [hgeneric]
  rfl

theorem renumber_array (hf : FixesReserved f) (c : ClassId) (name : String) :
    (array c name).renumber f = array (f c) name := by
  rw [array, renumber_bare hf, Option.map_some, hf.object]
  rfl

theorem renumber_builtin (hf : FixesReserved f) : ∀ e ∈ Registry.builtins, e.renumber f = e := by
  have hobject := hf.object
  have hstring : f ClassId.string = ClassId.string := hf _ rfl
  have hbound : TypeExpr.object.renumber f = TypeExpr.object := by
    rw [TypeExpr.object, TypeExpr.renumber_ofClass hf, hobject]
  have hmetatype : (bare "Class" .concrete (some ClassId.object)).renumber f
      = bare "Class" .concrete (some ClassId.object) := by
    rw [renumber_bare hf, Option.map_some, hobject]
    rfl
  have hclass : ({ bare "Class" .concrete (some ClassId.object) with
      typeParams := [⟨"T", TypeExpr.object⟩] } : ClassEntry).renumber f
        = { bare "Class" .concrete (some ClassId.object) with
            typeParams := [⟨"T", TypeExpr.object⟩] } := by
    show ({ (bare "Class" .concrete (some ClassId.object)).renumber f with
      typeParams := [⟨"T", TypeExpr.object.renumber f⟩] } : ClassEntry) = _
    rw [hmetatype, hbound]
  simp [Registry.builtins, renumber_bare hf, renumber_array hf, hobject, hstring, hclass,
    Kind.renumber]

end ClassEntry

/-! ### What is recorded -/

section Records

variable {R R' : TypeExpr → ClassId → Prop} {d : Draft} {e e' : ClassEntry}

/-- If what goes with the image of an element is the image of what goes with the element, then so it
is for lists. -/
theorem eq_map_of_forall₂ {α β γ δ : Type} {P : α → β → Prop} {P' : γ → δ → Prop} {φ : α → γ}
    {ψ : β → δ} (hunique : ∀ a b b', P a b → P' (φ a) b' → b' = ψ b) {l : List α} {m : List β}
    {m' : List δ} (h : List.Forall₂ P l m) (h' : List.Forall₂ P' (l.map φ) m') :
    m' = m.map ψ := by
  induction h generalizing m' with
  | nil =>
    cases h'
    rfl
  | cons hab _ ih =>
    obtain ⟨b', m', hb', hm', rfl⟩ := List.forall₂_cons_left_iff.1 h'
    rw [List.map_cons, hunique _ _ _ hab hb', ih hm']

theorem Executable.eq_renumber {c : ClassId} {m m₁ m₁' : Executable}
    (hunique : ∀ t c c', R t c → R' (t.renumber f) c' → c' = f c)
    (h : m₁.IsDeclaredBy c m) (hrecords : m.Records m₁ R)
    (h' : m₁'.IsDeclaredBy (f c) (m.renumber f)) (hrecords' : (m.renumber f).Records m₁' R') :
    m₁' = m₁.renumber f := by
  have hparams : m₁'.params = m₁.params.map f :=
    eq_map_of_forall₂ hunique hrecords.params hrecords'.params
  have hsame : (m.renumber f).genericReturn.isUnknown = m.genericReturn.isUnknown :=
    m.genericReturn.isUnknown_renumber
  have hreturns : m₁'.returns = f m₁.returns := by
    cases hunknown : m.genericReturn.isUnknown with
    | true =>
      rw [h.returns hunknown, h'.returns (hsame.trans hunknown)]
      rfl
    | false =>
      refine hunique m.genericReturn _ _ (hrecords.returns fun htrue => ?_)
        (hrecords'.returns fun htrue => ?_)
      · rw [hunknown] at htrue
        cases htrue
      · rw [hsame, hunknown] at htrue
        cases htrue
  rw [h'.rest, h.rest, hparams, hreturns]
  rfl

/-- Two entries are the same under other ids if they come of the same draft, and the classes that
are recorded go by the declared types. -/
theorem ClassEntry.eq_renumber (hf : FixesReserved f)
    (hunique : ∀ t c c', R t c → R' (t.renumber f) c' → c' = f c)
    (h : e.IsDeclaredBy d) (hrecords : d.Records e R)
    (h' : e'.IsDeclaredBy (d.renumber f)) (hrecords' : (d.renumber f).Records e' R') :
    e' = e.renumber f := by
  have hkind : d.kind.renumber f = .concrete ↔ d.kind = .concrete := by
    cases d.kind <;> simp [Kind.renumber]
  have hsuperclass : e'.superclass = e.superclass.map f := by
    cases hsuper : d.superclass with
    | none =>
      have hsuper' : (d.renumber f).superclass = none := by
        show d.superclass.map _ = none
        rw [hsuper]
        rfl
      rw [h.superclass hsuper, h'.superclass hsuper']
      show (if d.kind.renumber f = .concrete then _ else _) = _
      simp only [hkind]
      split_ifs
      · rw [Option.map_some, hf.object]
      · rfl
    | some t =>
      have hsuper' : (d.renumber f).superclass = some (t.renumber f) := by
        show d.superclass.map _ = _
        rw [hsuper]
        rfl
      obtain ⟨c, hc, htc⟩ := hrecords.superclass t hsuper
      obtain ⟨c', hc', htc'⟩ := hrecords'.superclass _ hsuper'
      rw [hc, hc', hunique t c c' htc htc']
      rfl
  have hgeneric : e'.genericSuperclass = e.genericSuperclass.map (TypeExpr.renumber f) := by
    rw [h'.genericSuperclass, h.genericSuperclass, hsuperclass]
    show (d.superclass.map (TypeExpr.renumber f) <|> _) = _
    cases d.superclass with
    | some t => rfl
    | none =>
      cases e.superclass with
      | none => rfl
      | some c => exact congrArg some (TypeExpr.renumber_ofClass hf .anonymous c).symm
  have hinterfaces : e'.interfaces = e.interfaces.map f :=
    eq_map_of_forall₂ hunique hrecords.interfaces hrecords'.interfaces
  have hfields : e'.fields = e.fields.map (FieldDecl.renumber f) := by
    have hfield : ∀ x x₁ x₁' : FieldDecl,
        (x₁ = { x with declaring := d.id, type := x₁.type } ∧ R x.genericType x₁.type) →
        (x₁' = { x.renumber f with declaring := (d.renumber f).id, type := x₁'.type } ∧
          R' (x.renumber f).genericType x₁'.type) → x₁' = x₁.renumber f := by
      rintro x x₁ x₁' ⟨hx, htype⟩ ⟨hx', htype'⟩
      rw [hx', hx, hunique _ _ _ htype htype']
      rfl
    exact eq_map_of_forall₂ hfield (h.fields.mp (fun _ _ => And.intro) hrecords.fields)
      (h'.fields.mp (fun _ _ => And.intro) hrecords'.fields)
  have hexecutable : ∀ m m₁ m₁' : Executable, m₁.IsDeclaredBy d.id m ∧ m.Records m₁ R →
      m₁'.IsDeclaredBy (d.renumber f).id (m.renumber f) ∧ (m.renumber f).Records m₁' R' →
        m₁' = m₁.renumber f := fun m m₁ m₁' h h' =>
    Executable.eq_renumber hunique h.1 h.2 h'.1 h'.2
  have hmethods : e'.methods = e.methods.map (Executable.renumber f) :=
    eq_map_of_forall₂ hexecutable (h.methods.mp (fun _ _ => And.intro) hrecords.methods)
      (h'.methods.mp (fun _ _ => And.intro) hrecords'.methods)
  have hconstructors : e'.constructors = e.constructors.map (Executable.renumber f) :=
    eq_map_of_forall₂ hexecutable (h.constructors.mp (fun _ _ => And.intro) hrecords.constructors)
      (h'.constructors.mp (fun _ _ => And.intro) hrecords'.constructors)
  have hname : e'.name = e.name := h'.name.trans h.name.symm
  have hkinds : e'.kind = e.kind.renumber f := by
    rw [h'.kind, h.kind]
    rfl
  have htypeParams : e'.typeParams = e.typeParams.map (TypeParam.renumber f) := by
    rw [h'.typeParams, h.typeParams]
    rfl
  have hgenericInterfaces :
      e'.genericInterfaces = e.genericInterfaces.map (TypeExpr.renumber f) := by
    rw [h'.genericInterfaces, h.genericInterfaces]
    rfl
  have hprefixes : e'.strippedPrefixes = e.strippedPrefixes :=
    h'.strippedPrefixes.trans h.strippedPrefixes.symm
  cases e'
  simp only at *
  subst_vars
  rfl

end Records

/-! ### Two registries -/

namespace Registration.Renumbers

variable {g g' : Registration} {c a : ClassId} {e : ClassEntry} {k : ℕ}

theorem isArrays (h : g.Renumbers f g') {b : ClassId} (harrays : g.registry.IsArrays k b c) :
    g'.registry.IsArrays k (f b) (f c) := by
  induction k generalizing c with
  | zero => exact congrArg f harrays
  | succ k ih =>
    obtain ⟨x, hx, hc⟩ := harrays
    exact ⟨f x, ih hx, by rw [h.array?, hc]; rfl⟩

/-- How an entry and the one under the other id go together. -/
inductive Pairs (f : Equiv.Perm ClassId) (g g' : Registration) :
    ClassEntry → ClassEntry → Prop where
  /-- They are those of a type every host provides. -/
  | builtin {e : ClassEntry} (he : e ∈ Registry.builtins) : Pairs f g g' e e
  /-- They are those of an array class. -/
  | array (k : ClassId) (name name' : String) :
    Pairs f g g' (.array k name) (.array (f k) name')
  /-- They come of a draft. -/
  | declared {d : Draft} {e e' : ClassEntry} (h : e.IsDeclaredBy d)
    (hrecords : d.Records e fun t c =>
      ∃ b k, t.ErasesTo g.registry.types.boundOf b k ∧ g.registry.IsArrays k b c)
    (h' : e'.IsDeclaredBy (d.renumber f))
    (hrecords' : (d.renumber f).Records e' fun t c =>
      ∃ b k, t.ErasesTo g'.registry.types.boundOf b k ∧ g'.registry.IsArrays k b c) :
    Pairs f g g' e e'

theorem Pairs.typeParams {e e' : ClassEntry} (hf : FixesReserved f) (h : Pairs f g g' e e') :
    e'.typeParams = e.typeParams.map (TypeParam.renumber f) := by
  cases h with
  | builtin he =>
    exact congrArg ClassEntry.typeParams (ClassEntry.renumber_builtin hf e he).symm
  | array k name name' => rfl
  | declared h _ h' _ =>
    rw [h'.typeParams, h.typeParams]
    rfl

/-- The types every host provides are registered as they were. -/
theorem entryOf?_reserved (h : g.Renumbers f g') (hc : c.isReserved = true) :
    g.registry.entryOf? c = Registry.initial.entryOf? c ∧
      g'.registry.entryOf? (f c) = Registry.initial.entryOf? c := by
  obtain ⟨drafts, drafts', hdeclared, hdeclared', -⟩ := h.declared
  rw [h.reserved c hc]
  exact ⟨(hdeclared.reachable.sound h.ids).registry.reserved c hc,
    (hdeclared'.reachable.sound h.ids').registry.reserved c hc⟩

/-- The same classes are registered. -/
theorem isSome_entryOf?_iff (h : g.Renumbers f g') :
    (g'.registry.entryOf? (f c)).isSome = true ↔ (g.registry.entryOf? c).isSome = true := by
  cases hc : c.isReserved with
  | true => rw [(h.entryOf?_reserved hc).1, (h.entryOf?_reserved hc).2]
  | false =>
    obtain ⟨drafts, drafts', hdeclared, hdeclared', hperm⟩ := h.declared
    have hc' : (f c).isReserved = false := h.reserved.isReserved_apply.trans hc
    rw [hdeclared.isSome_entryOf?_iff h.ids hc, hdeclared'.isSome_entryOf?_iff h.ids' hc']
    refine or_congr (f.surjective.exists.trans (exists_congr fun k => ?_)) ?_
    · rw [h.array?, Option.map_eq_some_iff]
      simp
    · simp [hperm.mem_iff, Draft.renumber]

theorem entryOf?_eq_none (h : g.Renumbers f g') (hnone : g.registry.entryOf? c = none) :
    g'.registry.entryOf? (f c) = none := by
  rw [← Option.not_isSome_iff_eq_none, h.isSome_entryOf?_iff, hnone]
  simp

/-- Each registered class is registered under its other id. -/
theorem exists_pairs (h : g.Renumbers f g') (he : g.registry.entryOf? c = some e) :
    ∃ e', g'.registry.entryOf? (f c) = some e' ∧ Pairs f g g' e e' := by
  obtain ⟨drafts, drafts', hdeclared, hdeclared', hperm⟩ := h.declared
  cases hc : c.isReserved with
  | true =>
    obtain ⟨hsame, hsame'⟩ := h.entryOf?_reserved hc
    have hinitial : Registry.initial.entryOf? c = some e := hsame.symm.trans he
    refine ⟨e, hsame'.trans hinitial, .builtin ?_⟩
    obtain ⟨i, hi, heq⟩ := List.mem_mapIdx.1 (Registry.mem_of_entryOf?_initial hinitial)
    exact (Prod.mk.inj heq).2 ▸ List.getElem_mem hi
  | false =>
    rcases hdeclared.entryOf?_cases h.ids he with hreserved | ⟨k, name, rfl⟩ | ⟨d, hd, rfl⟩
    · rw [hc] at hreserved
      cases hreserved
    · -- an array class goes to that of the same component
      have harray : g.registry.array? k = some c :=
        ((hdeclared.reachable.fresh h.ids).registry.arrays k c).2 (Registry.kind_of_entryOf? he)
      have harray' : g'.registry.array? (f k) = some (f c) := by
        rw [h.array?, harray]
        rfl
      obtain ⟨name', he'⟩ :=
        hdeclared'.exists_array h.ids' harray' (h.reserved.isReserved_apply.trans hc)
      exact ⟨_, he', .array k name name'⟩
    · -- the class of a draft goes to that of the same draft
      have hd' : d.renumber f ∈ drafts' := hperm.mem_iff.2 (List.mem_map_of_mem hd)
      obtain ⟨-, e₁, he₁, hdraft, hrecords⟩ := hdeclared.exists_entry h.ids hd
      obtain ⟨-, e', he', hdraft', hrecords'⟩ := hdeclared'.exists_entry h.ids' hd'
      obtain rfl := Option.some.inj (he.symm.trans he₁)
      exact ⟨e', he', .declared hdraft hrecords hdraft' hrecords'⟩

/-- The bounds of type variables are the same under other ids. -/
theorem boundOf (h : g.Renumbers f g') (v : TypeVar) :
    g'.registry.types.boundOf (v.renumber f)
      = (g.registry.types.boundOf v).map (TypeExpr.renumber f) := by
  rw [Registry.boundOf_eq, Registry.boundOf_eq]
  show (g'.registry.entryOf? (f v.owner)).bind _ = _
  cases he : g.registry.entryOf? v.owner with
  | none =>
    rw [h.entryOf?_eq_none he]
    rfl
  | some e =>
    obtain ⟨e', he', hpairs⟩ := h.exists_pairs he
    rw [he', Option.bind_some, Option.bind_some, hpairs.typeParams h.reserved, List.getElem?_map]
    show ((e.typeParams[v.index.toNat]?).map _).map _ = _
    cases e.typeParams[v.index.toNat]? <;> rfl

/-- The entry under the other id is the same, but for the name that an array class has. -/
theorem Pairs.eq_renumber {e e' : ClassEntry} (h : g.Renumbers f g') (hpairs : Pairs f g g' e e') :
    e' = { e.renumber f with name := e'.name } := by
  cases hpairs with
  | builtin he =>
    rw [ClassEntry.renumber_builtin h.reserved e he]
  | array k name name' =>
    rw [ClassEntry.renumber_array h.reserved]
    rfl
  | declared hdraft hrecords hdraft' hrecords' =>
    have hsame : e' = e.renumber f := by
      refine ClassEntry.eq_renumber h.reserved ?_ hdraft hrecords hdraft' hrecords'
      -- the types erase to the same, whatever was registered when they were recorded
      rintro t c c' ⟨b, k, hto, harrays⟩ ⟨b', k', hto', harrays'⟩
      obtain ⟨rfl, rfl⟩ := hto'.unique (hto.renumber h.reserved h.boundOf)
      exact harrays'.unique (h.isArrays harrays)
    rw [hsame]

/-- **The same declarations in another order.**  The two registries report the same under other
ids. -/
theorem types (h : g.Renumbers f g') : g.registry.types.Renumbers f g'.registry.types := by
  -- what an entry says, and what is said of a class that is not registered
  have hentry : ∀ {α : Type} (c : ClassId) (said : ClassEntry → α) (renumbered : α → α)
      (otherwise : α), renumbered otherwise = otherwise →
      (∀ e name, said { e.renumber f with name := name } = renumbered (said e)) →
      ((g'.registry.entryOf? (f c)).map said).getD otherwise
        = renumbered (((g.registry.entryOf? c).map said).getD otherwise) := by
    intro α c said renumbered otherwise hotherwise hsaid
    cases he : g.registry.entryOf? c with
    | none =>
      rw [h.entryOf?_eq_none he]
      exact hotherwise.symm
    | some e =>
      obtain ⟨e', he', hpairs⟩ := h.exists_pairs he
      rw [he', hpairs.eq_renumber h]
      exact hsaid e _
  have hbind : ∀ {α : Type} (o : Option ClassEntry) (said : ClassEntry → Option α),
      o.bind said = (o.map said).getD none := by
    intro α o said
    cases o <;> rfl
  refine ⟨fun c => ?_, fun c => ?_, fun c => ?_, fun c => ?_, fun c => ?_, fun c => ?_, fun c => ?_,
    fun c => ?_, fun c => ?_, fun c => ?_⟩
  · exact hentry c ClassEntry.kind (Kind.renumber f) .concrete rfl fun _ _ => rfl
  · show (g'.registry.entryOf? (f c)).bind _ = ((g.registry.entryOf? c).bind _).map f
    rw [hbind, hbind]
    exact hentry c ClassEntry.superclass (Option.map f) none rfl fun _ _ => rfl
  · exact hentry c ClassEntry.interfaces (List.map f) [] rfl fun _ _ => rfl
  · exact hentry c ClassEntry.typeParams (List.map (TypeParam.renumber f)) [] rfl fun _ _ => rfl
  · show (g'.registry.entryOf? (f c)).bind _ = ((g.registry.entryOf? c).bind _).map _
    rw [hbind, hbind]
    exact hentry c ClassEntry.genericSuperclass (Option.map (TypeExpr.renumber f)) none rfl
      fun _ _ => rfl
  · exact hentry c ClassEntry.genericInterfaces (List.map (TypeExpr.renumber f)) [] rfl
      fun _ _ => rfl
  · exact hentry c ClassEntry.fields (List.map (FieldDecl.renumber f)) [] rfl fun _ _ => rfl
  · exact hentry c ClassEntry.methods (List.map (Executable.renumber f)) [] rfl fun _ _ => rfl
  · exact hentry c ClassEntry.constructors (List.map (Executable.renumber f)) [] rfl fun _ _ => rfl
  · exact hentry c ClassEntry.strippedPrefixes id [] rfl fun _ _ => rfl

end Registration.Renumbers

end ScriptSurface
