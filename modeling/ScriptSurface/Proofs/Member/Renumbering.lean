import ScriptSurface.Proofs.Member.Dispatch
import ScriptSurface.Proofs.Member.Enumeration
import ScriptSurface.Proofs.Member.Merge
import ScriptSurface.Proofs.Member.Properties
import ScriptSurface.Proofs.Registry.Renumbering

/-!
# Members under other ids

Sorted discovery goes through the methods of one raw name in the order of their parameters, and
these are compared by the ids of classes.  So two hosts that report the same under other ids do not
have all the same members.  What is the same is said by `Slot.AgreesUnder`: the field, the getter
and the overload of each signature, since each of them is chosen among methods with the same
parameters, which keep the order they are declared in.  What may differ is the order of overloads
and the setter, which is chosen among methods with different parameters.

These are the same too where the methods that they are chosen from compare alike under the other ids
(`Environment.KeepsOrder`).  Then slots are the same in all (`Slot.renumber`), and calls are
dispatched alike (`Slot.select_renumber`).
-/

namespace ScriptSurface

section Definitions

variable (f : Equiv.Perm ClassId)

/-! ### Slots under other ids -/

/-- The signature with classes under their other ids. -/
def Signature.renumber (σ : Signature) : Signature := ⟨σ.types.map f⟩

/-- The candidate with classes under their other ids. -/
def Binding.renumber (b : Binding) : Binding :=
  { b with executable := b.executable.renumber f, signature := b.signature.renumber f }

theorem Signature.renumber_injective : Function.Injective (Signature.renumber f) := by
  intro σ τ h
  cases σ; cases τ
  exact congrArg Signature.mk (List.map_injective_iff.2 f.injective (Signature.mk.inj h))

/-- The overloads with classes under their other ids, in the same order. -/
def Overloads.renumber (o : Overloads) : Overloads where
  toList := o.toList.map fun e => (e.1.renumber f, e.2.renumber f)
  nodup_keys := by
    rw [List.map_map]
    have hkeys := o.nodup_keys.map (Signature.renumber_injective f)
    rwa [List.map_map] at hkeys

/-- The slot with classes under their other ids. -/
def Slot.renumber (s : Slot) : Slot where
  field := s.field.map (FieldDecl.renumber f)
  getter := s.getter.map (Binding.renumber f)
  setter := s.setter.map (Binding.renumber f)
  overloads := Overloads.renumber f s.overloads

/-- The slots are the same under other ids, but for the order of the overloads and for which setter
there is. -/
structure Slot.AgreesUnder (s s' : Slot) : Prop where
  /-- The field is the same. -/
  field : s'.field = s.field.map (FieldDecl.renumber f)
  /-- The getter is the same. -/
  getter : s'.getter = s.getter.map (Binding.renumber f)
  /-- There is a setter in one if there is in the other. -/
  setter : s'.setter.isSome = s.setter.isSome
  /-- The overload of each signature is the same. -/
  overload : ∀ σ, s'.overloads.find? (σ.renumber f)
    = (s.overloads.find? σ).map (Binding.renumber f)

/-! ### Environments -/

/-- The two environments are the same under other ids. -/
structure Environment.Renumbers (env env' : Environment) : Prop where
  /-- The hosts report the same. -/
  types : env.types.Renumbers f env'.types
  /-- The types every host provides keep their ids. -/
  reserved : FixesReserved f
  /-- Fields get the same names. -/
  fieldName : ∀ c d, env'.renamer.fieldName (f c) (d.renumber f) = env.renamer.fieldName c d
  /-- Methods get the same names. -/
  methodName : ∀ c m, env'.renamer.methodName (f c) (m.renumber f) = env.renamer.methodName c m
  /-- Overloads take the same calls. -/
  accepts : ∀ σ τ, env'.accepts (σ.renumber f) (τ.renumber f) = env.accepts σ τ
  /-- The options are the same. -/
  options : env'.options = env.options

/-- The parameters of two methods compare the same under other ids. -/
def Executable.ComparesAlike (m m' : Executable) : Prop :=
  Order.lists ClassId.order (m.params.map f) (m'.params.map f)
    = Order.lists ClassId.order m.params m'.params

instance (m m' : Executable) : Decidable (m.ComparesAlike f m') :=
  inferInstanceAs (Decidable (_ = _))

/-- The parameters of methods compare the same under other ids, for any two eligible methods of a
class that have one raw name and are overloads of the same name or setters of the same property. -/
def Environment.KeepsOrder (env : Environment) (c : ClassId) (n : String) : Prop :=
  ∀ m ∈ (env.types.methods c).filter env.isEligibleMethod,
    ∀ m' ∈ (env.types.methods c).filter env.isEligibleMethod, m.name = m'.name →
      (env.methodName c m = n ∧ env.methodName c m' = n ∨
        env.accessor? c m = some (.setter, n) ∧ env.accessor? c m' = some (.setter, n)) →
      m.ComparesAlike f m'

instance (env : Environment) (c : ClassId) (n : String) : Decidable (env.KeepsOrder f c n) :=
  inferInstanceAs (Decidable (∀ m ∈ (env.types.methods c).filter env.isEligibleMethod, ∀ m' ∈ _, _))

end Definitions

variable {f : Equiv.Perm ClassId}

/-! ### Overloads -/

theorem eraseDups_map_of_injective {α β : Type} [DecidableEq α] [DecidableEq β] {g : α → β}
    (hg : Function.Injective g) (l : List α) : (l.map g).eraseDups = l.eraseDups.map g := by
  induction l using firstAppearance_induction with
  | nil => rfl
  | cons a l ih =>
    have hfilter : (l.map g).filter (fun b => !b == g a) = (l.filter fun b => !b == a).map g := by
      rw [List.filter_map]
      exact congrArg (List.map g) (List.filter_congr fun b _ => by simp [hg.eq_iff])
    rw [List.map_cons, List.eraseDups_cons, List.eraseDups_cons, List.map_cons, hfilter, ih]

theorem Signature.exists_renumber (f : Equiv.Perm ClassId) (σ : Signature) :
    ∃ τ : Signature, τ.renumber f = σ := by
  refine ⟨⟨σ.types.map f.symm⟩, ?_⟩
  cases σ
  simp [renumber]

namespace Overloads

theorem keys_renumber (o : Overloads) :
    (o.renumber f).keys = o.keys.map (Signature.renumber f) := by
  unfold Assoc.keys renumber
  rw [List.map_map, List.map_map]
  rfl

theorem values_renumber (o : Overloads) :
    (o.renumber f).values = o.values.map (Binding.renumber f) := by
  unfold Assoc.values renumber
  rw [List.map_map, List.map_map]
  rfl

theorem find?_renumber (o : Overloads) (σ : Signature) :
    (o.renumber f).find? (σ.renumber f) = (o.find? σ).map (Binding.renumber f) := by
  show Assoc.valueIn? _ (o.toList.map _) = (Assoc.valueIn? _ o.toList).map _
  induction o.toList with
  | nil => rfl
  | cons e l ih =>
    rw [List.map_cons, Assoc.valueIn?, Assoc.valueIn?, ih]
    by_cases he : e.1 = σ
    · rw [if_pos he, if_pos (congrArg _ he)]
      rfl
    · rw [if_neg he, if_neg fun h => he (Signature.renumber_injective f h)]

end Overloads

namespace Slot

variable {s s' : Slot}

theorem agreesUnder_renumber (s : Slot) : s.AgreesUnder f (s.renumber f) where
  field := rfl
  getter := rfl
  setter := Option.isSome_map
  overload := s.overloads.find?_renumber

/-- Slots that agree are the same if setters and the order of overloads are. -/
theorem AgreesUnder.eq_renumber (h : s.AgreesUnder f s')
    (hsetter : s'.setter = s.setter.map (Binding.renumber f))
    (hkeys : s'.overloads.keys = s.overloads.keys.map (Signature.renumber f)) :
    s' = s.renumber f := by
  have hoverloads : s'.overloads = s.overloads.renumber f := by
    refine Assoc.ext_find? (hkeys.trans s.overloads.keys_renumber.symm) fun τ => ?_
    obtain ⟨σ, rfl⟩ := Signature.exists_renumber f τ
    rw [h.overload, Overloads.find?_renumber]
  have hfield := h.field
  have hgetter := h.getter
  cases s'
  simp only at hfield hgetter hsetter hoverloads
  rw [hfield, hgetter, hsetter, hoverloads]
  rfl

/-- Calls are dispatched alike. -/
theorem select_renumber {accepts accepts' : Signature → Signature → Bool}
    (haccepts : ∀ σ τ, accepts' (σ.renumber f) (τ.renumber f) = accepts σ τ) (s : Slot)
    (σ : Signature) :
    (s.renumber f).select accepts' (σ.renumber f)
      = (s.select accepts σ).map (Binding.renumber f) := by
  have hsearch : (s.renumber f).search accepts' (σ.renumber f)
      = (s.search accepts σ).map (Binding.renumber f) := by
    have htakes : ((fun b : Binding => !b.hidden && accepts' b.signature (σ.renumber f)) ∘
        Binding.renumber f) = fun b => !b.hidden && accepts b.signature σ := by
      funext b
      exact congrArg (!b.hidden && ·) (haccepts b.signature σ)
    unfold search
    show (s.overloads.renumber f).values.find? _ = _
    rw [Overloads.values_renumber, List.find?_map, htakes]
  have hoverloads : (s.renumber f).overloads = s.overloads.renumber f := rfl
  unfold select
  rw [hoverloads, Overloads.find?_renumber, hsearch]
  cases s.overloads.find? σ with
  | none => rfl
  | some b =>
    show (if b.hidden then _ else some (b.renumber f)) = _
    cases hb : b.hidden <;> simp [hb]

end Slot

/-! ### Merges -/

section Merge

variable {own own' : List Slot} {s s' : Slot}

theorem filterMap_of_forall₂ {α α' β β' : Type} {R : α → α' → Prop} {p : α → Option β}
    {p' : α' → Option β'} {g : β → β'} (hR : ∀ a a', R a a' → p' a' = (p a).map g) {l : List α}
    {l' : List α'} (h : List.Forall₂ R l l') : l'.filterMap p' = (l.filterMap p).map g := by
  induction h with
  | nil => rfl
  | @cons a a' l l' ha _ ih =>
    rw [List.filterMap_cons, List.filterMap_cons, hR a a' ha, ih]
    cases p a <;> rfl

theorem findSome?_of_forall₂ {α α' β β' : Type} {R : α → α' → Prop} {p : α → Option β}
    {p' : α' → Option β'} {g : β → β'} (hR : ∀ a a', R a a' → p' a' = (p a).map g) {l : List α}
    {l' : List α'} (h : List.Forall₂ R l l') : l'.findSome? p' = (l.findSome? p).map g := by
  rw [← List.head?_filterMap, ← List.head?_filterMap, filterMap_of_forall₂ hR h, List.head?_map]

theorem Binding.merge?_map_renumber (bs : List Binding) :
    Binding.merge? (bs.map (Binding.renumber f))
      = (Binding.merge? bs).map (Binding.renumber f) := by
  unfold merge?
  rw [List.getLast?_map, List.any_map, List.findSome?_map, Option.map_map, Option.map_map]
  rfl

/-- What comes of slots that agree agrees. -/
theorem Slot.IsMerge.agreesUnder (h : s.IsMerge own) (h' : s'.IsMerge own')
    (hown : List.Forall₂ (Slot.AgreesUnder f) own own') : s.AgreesUnder f s' where
  field := by
    rw [h.field, h'.field]
    exact findSome?_of_forall₂ (fun _ _ ho => ho.field) hown
  getter := by
    rw [h.getter, h'.getter]
    exact findSome?_of_forall₂ (fun _ _ ho => ho.getter) hown
  setter := by
    rw [h.setter, h'.setter, List.isSome_findSome?, List.isSome_findSome?]
    clear h h'
    induction hown with
    | nil => rfl
    | cons ho _ ih => rw [List.any_cons, List.any_cons, ho.setter, ih]
  overload σ := by
    rw [h.overload, h'.overload, ← Binding.merge?_map_renumber]
    exact congrArg _ (filterMap_of_forall₂ (fun _ _ ho => ho.overload σ) hown)

/-- What comes of slots that are the same is the same. -/
theorem Slot.IsMerge.eq_renumber (h : s.IsMerge own) (h' : s'.IsMerge own')
    (hown : List.Forall₂ (fun o o' => o' = o.renumber f) own own') : s' = s.renumber f := by
  have hagree : List.Forall₂ (Slot.AgreesUnder f) own own' :=
    hown.imp fun o o' ho => ho ▸ o.agreesUnder_renumber
  have hmap : own.map (Slot.renumber f) = own' := by
    rw [← List.forall₂_eq_eq_eq, List.forall₂_map_left_iff]
    exact hown.imp fun _ _ ho => ho.symm
  refine (h.agreesUnder h' hagree).eq_renumber ?_ ?_
  · rw [h.setter, h'.setter, ← hmap, List.findSome?_map, List.map_findSome?]
    rfl
  · have hkeys : ∀ o : Slot, (o.renumber f).overloads.keys
        = o.overloads.keys.map (Signature.renumber f) := fun o => o.overloads.keys_renumber
    rw [h.signatures, h'.signatures, ← hmap, List.flatMap_map,
      ← eraseDups_map_of_injective (Signature.renumber_injective f), List.map_flatMap]
    simp only [hkeys]

/-- A relation between what is behind a name in tables is one between what is behind it in their
merges, if it goes along with merging slots. -/
theorem MemberTable.rel_merge {R : Slot → Slot → Prop}
    (hR : ∀ {own own' : List Slot} {s s' : Slot}, s.IsMerge own → s'.IsMerge own' →
      List.Forall₂ R own own' → R s s') {n : String} {walk walk' : List MemberTable}
    (h : List.Forall₂ (fun t t' => Option.Rel R (t.find? n) (t'.find? n)) walk walk') :
    Option.Rel R ((merge walk).find? n) ((merge walk').find? n) := by
  have hslots : List.Forall₂ R (walk.filterMap fun t => t.find? n)
      (walk'.filterMap fun t => t.find? n) := List.rel_filterMap (fun _ _ ht => ht) h
  have hmerge := isMerge_merge walk
  have hmerge' := isMerge_merge walk'
  -- the name is in both merges or in none of them
  have hsome : ((merge walk).find? n).isSome ↔ ((merge walk').find? n).isSome := by
    rw [hmerge.isSome_find?_iff, hmerge'.isSome_find?_iff, ne_eq, ne_eq, ← List.length_eq_zero_iff,
      ← List.length_eq_zero_iff, hslots.length_eq]
  cases hs : (merge walk).find? n <;> cases hs' : (merge walk').find? n <;> rw [hs, hs'] at hsome
  · exact .none
  · simp at hsome
  · simp at hsome
  · next s s' => exact .some (hR (hmerge.slots n s hs) (hmerge'.slots n s' hs') hslots)

end Merge

/-! ### Discovery -/

theorem Accessor.ofMethod?_renumber (hf : FixesReserved f) (name : String) (m : Executable) :
    Accessor.ofMethod? name (m.renumber f) = Accessor.ofMethod? name m := by
  have harity : (m.renumber f).arity = m.arity := List.length_map ..
  have hvoid : (m.renumber f).returns.isVoid = m.returns.isVoid := hf.isVoid_apply
  have hboolean : (m.renumber f).returns.isBoolean = m.returns.isBoolean := hf.isBoolean_apply
  unfold ofMethod?
  rw [harity, hvoid, hboolean]

/-- Methods compare the same under other ids if their parameters do, or their raw names differ. -/
theorem Environment.methodOrder_renumber {m m' : Executable}
    (h : m.name = m'.name → m.ComparesAlike f m') :
    methodOrder (m.renumber f) (m'.renumber f) = methodOrder m m' := by
  show (Order.texts m.name m'.name).then _ = (Order.texts m.name m'.name).then _
  cases hname : Order.texts m.name m'.name with
  | lt => rfl
  | gt => rfl
  | eq => exact h (Std.LawfulEqCmp.eq_of_compare hname)

namespace Environment.Renumbers

variable {env env' : Environment} {c : ClassId} {n : String}

theorem isWithheld (h : env.Renumbers f env') : env'.isWithheld (f c) = env.isWithheld c := by
  have hobject : f c = ClassId.object ↔ c = ClassId.object := h.reserved.apply_eq_iff rfl
  unfold Environment.isWithheld
  simp only [hobject, h.options]

theorem fieldName_renumber (h : env.Renumbers f env') (d : FieldDecl) :
    env'.fieldName (f c) (d.renumber f) = env.fieldName c d := by
  unfold Environment.fieldName Naming.ofField
  rw [h.fieldName, h.types.strippedPrefixes]
  rfl

theorem methodName_renumber (h : env.Renumbers f env') (m : Executable) :
    env'.methodName (f c) (m.renumber f) = env.methodName c m := by
  unfold Environment.methodName Naming.ofMethod
  rw [h.methodName, h.types.strippedPrefixes]
  rfl

theorem accessor?_renumber (h : env.Renumbers f env') (m : Executable) :
    env'.accessor? (f c) (m.renumber f) = env.accessor? c m := by
  unfold accessor?
  rw [h.options, h.methodName_renumber, Accessor.ofMethod?_renumber h.reserved]
  rfl

theorem bindMethod_renumber (h : env.Renumbers f env') (m : Executable) :
    env'.bindMethod (f c) (m.renumber f) = (env.bindMethod c m).renumber f := by
  unfold bindMethod
  rw [h.accessor?_renumber]
  rfl

theorem exposedFields (h : env.Renumbers f env') :
    env'.exposedFields (f c) = (env.exposedFields c).map (FieldDecl.renumber f) := by
  have heligible : env'.isEligibleField ∘ FieldDecl.renumber f = env.isEligibleField := by
    funext d
    show env'.isEligibleField (d.renumber f) = _
    unfold isEligibleField
    rw [h.options]
    rfl
  have hfields : env'.eligibleFields (f c)
      = (env.eligibleFields c).map (FieldDecl.renumber f) := by
    unfold eligibleFields
    rw [h.options, h.types.fields, List.filter_map, heligible]
    cases env.options.discoveryOrder with
    | declared => rfl
    | sortedByName =>
      have hsort : ∀ ds : List FieldDecl,
          (Order.sortByText FieldDecl.name ds).map (FieldDecl.renumber f)
            = Order.sortByText FieldDecl.name (ds.map (FieldDecl.renumber f)) :=
        fun ds => List.map_mergeSort fun _ _ _ _ => rfl
      exact (hsort _).symm
  unfold Environment.exposedFields
  rw [h.isWithheld, hfields]
  split_ifs <;> rfl

/-- The same methods are eligible. -/
theorem filter_methods (h : env.Renumbers f env') (c : ClassId) :
    (env'.types.methods (f c)).filter env'.isEligibleMethod
      = ((env.types.methods c).filter env.isEligibleMethod).map (Executable.renumber f) := by
  have heligible : env'.isEligibleMethod ∘ Executable.renumber f = env.isEligibleMethod := by
    funext m
    show env'.isEligibleMethod (m.renumber f) = _
    unfold isEligibleMethod
    rw [h.options]
    rfl
  rw [h.types.methods, List.filter_map, heligible]

/-- The same methods are exposed, in whatever order. -/
theorem exists_exposedMethods (h : env.Renumbers f env') {P P' : Executable → Prop}
    (hP : ∀ m, P' (m.renumber f) ↔ P m) :
    (∃ m ∈ env'.exposedMethods (f c), P' m) ↔ ∃ m ∈ env.exposedMethods c, P m := by
  simp only [mem_exposedMethods_iff, h.isWithheld, h.filter_methods]
  constructor
  · rintro ⟨m', ⟨hexposed, hm'⟩, hP'⟩
    obtain ⟨m, hm, rfl⟩ := List.mem_map.1 hm'
    exact ⟨m, ⟨hexposed, hm⟩, (hP m).1 hP'⟩
  · rintro ⟨m, ⟨hexposed, hm⟩, hPm⟩
    exact ⟨m.renumber f, ⟨hexposed, List.mem_map_of_mem hm⟩, (hP m).2 hPm⟩

/-- Of the exposed methods, those of a sort that compare the same under other ids come in the same
order. -/
theorem filter_exposedMethods (h : env.Renumbers f env') {p p' : Executable → Bool}
    (hp : ∀ m, p' (m.renumber f) = p m)
    (horder : ∀ m ∈ env.exposedMethods c, ∀ m' ∈ env.exposedMethods c, p m = true → p m' = true →
      m.name = m'.name → m.ComparesAlike f m') :
    (env'.exposedMethods (f c)).filter p'
      = ((env.exposedMethods c).filter p).map (Executable.renumber f) := by
  have hsort : p' ∘ Executable.renumber f = p := funext hp
  unfold Environment.exposedMethods at horder ⊢
  rw [h.isWithheld]
  split_ifs at horder ⊢
  · rfl
  · unfold eligibleMethods at horder ⊢
    rw [h.options, h.filter_methods]
    cases horderBy : env.options.discoveryOrder with
    | declared =>
      dsimp only
      rw [List.filter_map, hsort]
    | sortedByName =>
      rw [horderBy] at horder
      -- what is dropped makes no difference to how the rest is sorted
      have hfilter := fun q l => Order.filter_sort methodOrder q l
      unfold Order.sort at hfilter
      dsimp only
      rw [hfilter, hfilter, List.filter_map, hsort]
      refine (List.map_mergeSort fun m hm m' hm' => ?_).symm
      obtain ⟨hm, hpm⟩ := List.mem_filter.1 hm
      obtain ⟨hm', hpm'⟩ := List.mem_filter.1 hm'
      rw [methodOrder_renumber]
      exact horder m (List.mem_mergeSort.2 hm) m' (List.mem_mergeSort.2 hm') hpm hpm'

/-- The last exposed method of a sort is the same, where all of the sort compare the same under
other ids. -/
theorem last_exposedMethods (h : env.Renumbers f env') {p p' : Executable → Bool}
    (hp : ∀ m, p' (m.renumber f) = p m)
    (horder : ∀ m ∈ env.exposedMethods c, ∀ m' ∈ env.exposedMethods c, p m = true → p m' = true →
      m.name = m'.name → m.ComparesAlike f m') :
    ((env'.exposedMethods (f c)).reverse.find? p').map (env'.bindMethod (f c))
      = (((env.exposedMethods c).reverse.find? p).map (env.bindMethod c)).map
          (Binding.renumber f) := by
  have hlast : (env'.exposedMethods (f c)).reverse.find? p'
      = ((env.exposedMethods c).reverse.find? p).map (Executable.renumber f) := by
    rw [← List.head?_filter, ← List.head?_filter, List.filter_reverse, List.filter_reverse,
      List.head?_reverse, List.head?_reverse, h.filter_exposedMethods hp horder, List.getLast?_map]
  rw [hlast, Option.map_map, Option.map_map]
  exact congrArg (Option.map · _) (funext h.bindMethod_renumber)

/-! ### Own members -/

theorem mem_keys_ownMembers (h : env.Renumbers f env') :
    n ∈ (env'.ownMembers (f c)).keys ↔ n ∈ (env.ownMembers c).keys := by
  rw [(env'.isOwn_ownMembers (f c)).names, (env.isOwn_ownMembers c).names, h.exposedFields]
  refine or_congr ?_ (h.exists_exposedMethods fun m => ?_)
  · simp [h.fieldName_renumber]
  · rw [h.methodName_renumber, h.accessor?_renumber]

/-- What a class has of its own behind a name agrees. -/
theorem agreesUnder_slotAt (h : env.Renumbers f env') (c : ClassId) (n : String) :
    ((env.ownMembers c).slotAt n).AgreesUnder f ((env'.ownMembers (f c)).slotAt n) := by
  have hown := (env.isOwn_ownMembers c).slots n
  have hown' := (env'.isOwn_ownMembers (f c)).slots n
  -- methods with the same parameters compare the same
  have hsame : ∀ m m' : Executable, m.params = m'.params → m.ComparesAlike f m' := by
    intro m m' hparams
    have hrefl : ∀ l, Order.lists ClassId.order l l = .eq := fun _ => Std.ReflCmp.compare_self
    unfold Executable.ComparesAlike
    rw [hparams, hrefl, hrefl]
  refine ⟨?_, ?_, ?_, fun σ => ?_⟩
  · rw [hown.field, hown'.field, h.exposedFields, ← List.map_reverse, List.find?_map]
    simp only [Function.comp_def, h.fieldName_renumber]
  · rw [hown.getter, hown'.getter]
    refine h.last_exposedMethods (fun m => by rw [h.accessor?_renumber]) ?_
    intro m _ m' _ hm hm' _
    -- getters have no parameters
    have harity : ∀ m, decide (env.accessor? c m = some (.getter, n)) = true → m.params = [] :=
      fun m hm => List.eq_nil_of_length_eq_zero
        (Accessor.ofMethod?_getter (env.ofMethod?_of_accessor? c (of_decide_eq_true hm))).1
    exact hsame m m' ((harity m hm).trans (harity m' hm').symm)
  · -- there is a last setter if there is any
    rw [hown.setter, hown'.setter, Option.isSome_map, Option.isSome_map, Bool.eq_iff_iff,
      List.find?_isSome, List.find?_isSome]
    simp only [List.mem_reverse, decide_eq_true_eq]
    exact h.exists_exposedMethods fun m => by rw [h.accessor?_renumber]
  · rw [hown.overload, hown'.overload]
    have hinjective : ∀ τ : Signature, τ.renumber f = σ.renumber f ↔ τ = σ :=
      fun _ => (Signature.renumber_injective f).eq_iff
    have hsignature : ∀ m : Executable,
        (⟨(m.renumber f).params⟩ : Signature) = σ.renumber f ↔ (⟨m.params⟩ : Signature) = σ :=
      fun m => hinjective ⟨m.params⟩
    refine h.last_exposedMethods
      (fun m => by simp only [h.methodName_renumber, hsignature]) ?_
    intro m _ m' _ hm hm' _
    have hparams : ∀ m : Executable,
        decide (env.methodName c m = n ∧ (⟨m.params⟩ : Signature) = σ) = true →
          m.params = σ.types :=
      fun m hm => congrArg Signature.types (of_decide_eq_true hm).2
    exact hsame m m' ((hparams m hm).trans (hparams m' hm').symm)

/-- What a class has of its own behind a name is the same where the parameters of the methods behind
it compare the same. -/
theorem slotAt_eq_renumber (h : env.Renumbers f env') (horder : env.KeepsOrder f c n) :
    (env'.ownMembers (f c)).slotAt n = ((env.ownMembers c).slotAt n).renumber f := by
  have hown := (env.isOwn_ownMembers c).slots n
  have hown' := (env'.isOwn_ownMembers (f c)).slots n
  refine (h.agreesUnder_slotAt c n).eq_renumber ?_ ?_
  · rw [hown.setter, hown'.setter]
    refine h.last_exposedMethods (fun m => by rw [h.accessor?_renumber]) ?_
    intro m hm m' hm' hset hset' hname
    exact horder m (mem_exposedMethods_iff.1 hm).2 m' (mem_exposedMethods_iff.1 hm').2 hname
      (.inr ⟨of_decide_eq_true hset, of_decide_eq_true hset'⟩)
  · have hmethods : ((env'.exposedMethods (f c)).filter fun m => env'.methodName (f c) m = n)
        = ((env.exposedMethods c).filter fun m => env.methodName c m = n).map
            (Executable.renumber f) := by
      refine h.filter_exposedMethods (fun m => by rw [h.methodName_renumber]) ?_
      intro m hm m' hm' hn hn' hname
      exact horder m (mem_exposedMethods_iff.1 hm).2 m' (mem_exposedMethods_iff.1 hm').2 hname
        (.inl ⟨of_decide_eq_true hn, of_decide_eq_true hn'⟩)
    rw [hown.signatures, hown'.signatures, hmethods,
      ← eraseDups_map_of_injective (Signature.renumber_injective f), List.map_map, List.map_map]
    rfl

/-- A relation between what two classes have of their own behind a name, as a relation between their
tables. -/
theorem rel_ownMembers (h : env.Renumbers f env') {R : Slot → Slot → Prop}
    (hR : R ((env.ownMembers c).slotAt n) ((env'.ownMembers (f c)).slotAt n)) :
    Option.Rel R ((env.ownMembers c).find? n) ((env'.ownMembers (f c)).find? n) := by
  have hkeys : ((env'.ownMembers (f c)).find? n).isSome ↔ ((env.ownMembers c).find? n).isSome := by
    rw [Assoc.isSome_find?_iff, Assoc.isSome_find?_iff]
    exact h.mem_keys_ownMembers
  unfold MemberTable.slotAt at hR
  cases hs : (env.ownMembers c).find? n <;> cases hs' : (env'.ownMembers (f c)).find? n <;>
    rw [hs, hs'] at hkeys hR
  · exact .none
  · simp at hkeys
  · simp at hkeys
  · exact .some hR

end Environment.Renumbers

end ScriptSurface
