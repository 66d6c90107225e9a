import Mathlib.Logic.Equiv.Basic
import ScriptSurface.Proofs.Member.Renumbering
import ScriptSurface.Proofs.Session.Replies

/-!
# The same classes in another order

Classes that are declared in another order have other ids (`Registration.Renumbers`).  The types
above a class are the same then, in the same order, and what each of them has of its own agrees
(`Slot.AgreesUnder`), so tables do.  What goes by the order of methods need not be the same, since
sorted discovery compares parameters by id: the order of overloads, by which calls are dispatched,
and the choice between two setters.

`Session.answerAlike_of_keepsOrder` says when it is: if, in every type that a table is made of, the
methods of one raw name that are behind a member name compare the same under the other ids.  In
`pageFirst` and `photoFirst` they do not for every name, and a call goes to another overload in one
than in the other.
-/

namespace ScriptSurface

open Descriptor (Key)

variable {f : Equiv.Perm ClassId}

/-! ### Walks under other ids -/

/-- The key of the class under its other id. -/
def Descriptor.Key.renumber (f : Equiv.Perm ClassId) : Key → Key
  | general c => general (f c)
  | key => key

/-- Walks are the same if steps are. -/
theorem levelsFrom_map {α β : Type} {next : α → List α} {next' : β → List β} {g : α → β}
    (hnext : ∀ a, next' (g a) = (next a).map g) (n : ℕ) (level : List α) :
    levelsFrom next' n (level.map g) = (levelsFrom next n level).map g := by
  induction n generalizing level with
  | zero => rfl
  | succ n ih =>
    have hlevel : (level.map g).flatMap next' = (level.flatMap next).map g := by
      rw [List.flatMap_map, List.map_flatMap]
      exact List.flatMap_congr fun a _ => hnext a
    rw [levelsFrom, levelsFrom, List.isEmpty_map, hlevel, ih]
    split_ifs
    · rfl
    · rw [List.map_append]

namespace HostTypes.Renumbers

variable {h h' : HostTypes}

theorem supertypes (hrenumbers : h.Renumbers f h') (c : ClassId) :
    h'.supertypes (f c) = (h.supertypes c).map f := by
  unfold HostTypes.supertypes
  rw [hrenumbers.interfaces, hrenumbers.superclass, List.map_append]
  cases h.superclass c <;> rfl

/-- The hierarchy is as acyclic as it was. -/
theorem acyclic (hrenumbers : h.Renumbers f h') (hac : h.Acyclic) : h'.Acyclic := by
  intro c hc
  -- a cycle would be one under the former ids
  refine hac (f.symm c) (hc.lift f.symm fun a b hb => ?_)
  have hab : b ∈ (h.supertypes (f.symm a)).map f := by
    rw [← hrenumbers.supertypes, Equiv.apply_symm_apply]
    exact hb
  obtain ⟨p, hp, rfl⟩ := List.mem_map.1 hab
  show f.symm (f p) ∈ h.supertypes (f.symm a)
  rwa [Equiv.symm_apply_apply]

theorem ofClass (hrenumbers : h.Renumbers f h') (hf : FixesReserved f) (c : ClassId) :
    Key.ofClass h' (f c) = (Key.ofClass h c).renumber f := by
  have hobject : f c = ClassId.object ↔ c = ClassId.object := hf.apply_eq_iff rfl
  have hmetatype : f c = ClassId.metatype ↔ c = ClassId.metatype := hf.apply_eq_iff rfl
  have harray : h'.isArray (f c) = h.isArray c := by
    unfold HostTypes.isArray
    rw [hrenumbers.kind]
    cases h.kind c <;> rfl
  unfold Key.ofClass
  simp only [hobject, hmetatype, harray]
  split_ifs <;> rfl

theorem cls_renumber (hf : FixesReserved f) (key : Key) : (key.renumber f).cls = f key.cls := by
  cases key with
  | object => exact (hf ClassId.object rfl).symm
  | array => exact (hf ClassId.objectArray rfl).symm
  | metatype => exact (hf ClassId.metatype rfl).symm
  | general c => rfl

theorem walk (hrenumbers : h.Renumbers f h') (hf : FixesReserved f) (key : Key) :
    Key.walk h' (key.renumber f) = (Key.walk h key).map (Key.renumber f) := by
  refine levelsFrom_map (fun k => ?_) _ [key]
  -- nothing is above the universal base type, and only that is above array classes
  have hgeneral : k ≠ .object → k ≠ .array → Key.supertypes h' (k.renumber f)
      = (Key.supertypes h k).map (Key.renumber f) := by
    intro hobject harray
    have hobject' : k.renumber f ≠ .object := by cases k <;> first | exact hobject | nofun
    have harray' : k.renumber f ≠ .array := by cases k <;> first | exact harray | nofun
    rw [Key.supertypes_of_ne hobject harray, Key.supertypes_of_ne hobject' harray',
      cls_renumber hf, hrenumbers.supertypes, List.map_map, List.map_map]
    exact List.map_congr_left fun p _ => hrenumbers.ofClass hf p
  cases k with
  | object => rfl
  | array => rfl
  | metatype => exact hgeneral nofun nofun
  | general c => exact hgeneral nofun nofun

end HostTypes.Renumbers

/-! ### Tables -/

/-- The types whose own members a table is made of. -/
def Environment.sources (env : Environment) (key : Key) : Scope → List Key
  | .own => [key]
  | .merged => Key.walk env.types key

namespace Environment.Renumbers

variable {env env' : Environment} {key : Key} {n : String}

theorem rel_table (h : env.Renumbers f env') {R : Slot → Slot → Prop} {scope : Scope}
    (hmerge : ∀ {own own' : List Slot} {s s' : Slot}, s.IsMerge own → s'.IsMerge own' →
      List.Forall₂ R own own' → R s s')
    (hown : ∀ k ∈ env.sources key scope,
      R ((env.ownMembers k.cls).slotAt n) ((env'.ownMembers (f k.cls)).slotAt n)) :
    Option.Rel R ((env.table key scope).find? n)
      ((env'.table (key.renumber f) scope).find? n) := by
  have htable : ∀ k ∈ env.sources key scope, Option.Rel R ((env.ownMembers k.cls).find? n)
      ((env'.ownMembers (k.renumber f).cls).find? n) := by
    intro k hk
    rw [HostTypes.Renumbers.cls_renumber h.reserved]
    exact h.rel_ownMembers (hown k hk)
  cases scope with
  | own => exact htable key List.mem_cons_self
  | merged =>
    show Option.Rel R ((env.members key).find? n) ((env'.members (key.renumber f)).find? n)
    unfold members
    rw [h.types.walk h.reserved, List.map_map]
    refine MemberTable.rel_merge hmerge ?_
    rw [List.forall₂_map_left_iff, List.forall₂_map_right_iff, List.forall₂_same]
    exact htable

/-- What is behind a name agrees. -/
theorem agreesUnder_table (h : env.Renumbers f env') (key : Key) (scope : Scope) (n : String) :
    Option.Rel (Slot.AgreesUnder f) ((env.table key scope).find? n)
      ((env'.table (key.renumber f) scope).find? n) :=
  h.rel_table (fun hs hs' hown => hs.agreesUnder hs' hown) fun k _ => h.agreesUnder_slotAt k.cls n

/-- What is behind a name is the same where the parameters of the methods behind it compare the
same. -/
theorem find?_table (h : env.Renumbers f env') {scope : Scope}
    (horder : ∀ k ∈ env.sources key scope, env.KeepsOrder f k.cls n) :
    (env'.table (key.renumber f) scope).find? n
      = ((env.table key scope).find? n).map (Slot.renumber f) := by
  have hrel := h.rel_table (R := fun s s' => s' = s.renumber f)
    (fun hs hs' hown => hs.eq_renumber hs' hown) fun k hk => h.slotAt_eq_renumber (horder k hk)
  cases hs : (env.table key scope).find? n <;>
    cases hs' : (env'.table (key.renumber f) scope).find? n <;> rw [hs, hs'] at hrel <;>
    cases hrel
  · rfl
  · next heq => exact congrArg some heq

end Environment.Renumbers

/-! ### Registrations -/

/-- The environment of a registry with the default options, raw names, and overloads that take the
given calls. -/
def Registration.environment (g : Registration) (accepts : Signature → Signature → Bool) :
    Environment :=
  { Environment.plain g.registry.types with accepts := accepts }

theorem Registration.types_environment (g : Registration)
    (accepts : Signature → Signature → Bool) :
    (g.environment accepts).types = g.registry.types := rfl

theorem Registration.Renumbers.environment {g g' : Registration} (h : g.Renumbers f g')
    {accepts accepts' : Signature → Signature → Bool}
    (haccepts : ∀ σ τ, accepts' (σ.renumber f) (τ.renumber f) = accepts σ τ) :
    (g.environment accepts).Renumbers f (g'.environment accepts') where
  types := h.types
  reserved := h.reserved
  fieldName _ _ := rfl
  methodName _ _ := rfl
  accepts := haccepts
  options := rfl

namespace Session

open Registration (types_environment)

/-- The sessions of two environments answer the same under other ids about a name in a table of a
class, whatever they were asked before. -/
structure AnswerAlike (f : Equiv.Perm ClassId) (env env' : Environment) (scope : Scope)
    (c : ClassId) (n : String) : Prop where
  /-- What is behind the name is the same, the order of overloads included. -/
  slot : ∀ requests requests' : List Request,
    (answer env' requests' (tableOf env' scope (f c))).find? n
      = ((answer env requests (tableOf env scope c)).find? n).map (Slot.renumber f)
  /-- Calls are dispatched to the same overloads. -/
  call : ∀ (requests requests' : List Request) (σ : Signature), ∃ found,
    answer env requests (Request.reply env (.resolve scope c n σ)) = .binding found ∧
    answer env' requests' (Request.reply env' (.resolve scope (f c) n (σ.renumber f)))
      = .binding (found.map (Option.map (Binding.renumber f)))

/-- A call is dispatched by the slot of the name in the table. -/
theorem expected_resolve (env : Environment) (scope : Scope) (c : ClassId) (n : String)
    (σ : Signature) : Request.expected env (.resolve scope c n σ) =
      .binding (((env.table (Key.ofClass env.types c) scope).find? n).map fun s =>
        s.select env.accepts σ) := by
  rw [Request.expected, Environment.member?, Option.map_map]
  rfl

/-- **Registering the same classes in another order.**  Whatever order the same classes are declared
in, the tables of a class have the same names, and behind each of them the same field, the same
getter and the same overload for each signature.  All that is behind a name is the same, and calls
of it are dispatched alike, if its methods compare the same under the other ids. -/
theorem answerAlike_of_keepsOrder {g g' : Registration} (h : g.Renumbers f g')
    (hac : g.registry.types.Acyclic) {accepts accepts' : Signature → Signature → Bool}
    (haccepts : ∀ σ τ, accepts' (σ.renumber f) (τ.renumber f) = accepts σ τ) (scope : Scope)
    (c : ClassId) (n : String) :
    (∀ requests requests' : List Request, Option.Rel (Slot.AgreesUnder f)
      ((answer (g.environment accepts) requests
        (tableOf (g.environment accepts) scope c)).find? n)
      ((answer (g'.environment accepts') requests'
        (tableOf (g'.environment accepts') scope (f c))).find? n)) ∧
    ((∀ k ∈ (g.environment accepts).sources (Key.ofClass g.registry.types c) scope,
        (g.environment accepts).KeepsOrder f k.cls n) →
      AnswerAlike f (g.environment accepts) (g'.environment accepts') scope c n) := by
  have hrenumbers := h.environment haccepts
  have hac' : g'.registry.types.Acyclic := h.types.acyclic hac
  have hkey := h.types.ofClass h.reserved c
  have htable : ∀ requests, answer (g.environment accepts) requests
      (tableOf (g.environment accepts) scope c)
        = (g.environment accepts).table (Key.ofClass g.registry.types c) scope :=
    fun requests => Reply.table.inj (answer_reply hac requests (.table scope c))
  have htable' : ∀ requests', answer (g'.environment accepts') requests'
      (tableOf (g'.environment accepts') scope (f c))
        = (g'.environment accepts').table ((Key.ofClass g.registry.types c).renumber f) scope :=
    fun requests' => hkey ▸ Reply.table.inj (answer_reply hac' requests' (.table scope (f c)))
  constructor
  · intro requests requests'
    rw [htable, htable']
    exact hrenumbers.agreesUnder_table _ scope n
  · intro horder
    have hfind := hrenumbers.find?_table horder
    have hselect := fun σ => funext fun s : Slot => s.select_renumber haccepts σ
    refine ⟨fun requests requests' => by rw [htable, htable', hfind], fun requests requests' σ =>
      ⟨_, (answer_reply hac requests _).trans (expected_resolve ..), ?_⟩⟩
    rw [answer_reply hac', expected_resolve, types_environment, types_environment, hkey, hfind,
      Option.map_map, Option.map_map]
    exact congrArg (fun select => Reply.binding (Option.map select _)) (hselect σ)

end Session

/-! ### A viewer of pages and photos -/

/-- A public method for one argument, under way. -/
def viewMethod (name : String) (param : ClassId) : Executable :=
  .declareMethod name [.plain param .anonymous] (.plain ClassId.void .anonymous) 0

/-- A class without members, under way. -/
def blankDraft (id : ClassId) (name : String) : Draft :=
  ⟨id, name, .concrete, none, [], [], [], [], [], []⟩

/-- A class `Viewer`, under way, with a method `show` for pages and one for photos, and with a
method `tell` for pages and one for text. -/
def viewerDraft (page photo : ClassId) : Draft :=
  ((((blankDraft 18 "Viewer").addMethod (viewMethod "show" page)).addMethod
    (viewMethod "show" photo)).addMethod (viewMethod "tell" page)).addMethod
      (viewMethod "tell" ClassId.string)

/-- The registry with two classes of the given names, under ids 16 and 17. -/
def registryWith (first second : String) : Registry :=
  ((blankDraft 17 second).commit (Registry.reserve
    ((blankDraft 16 first).commit (Registry.reserve Registry.initial).2).2).2).2

/-- The registration with `Viewer` under id 18, after two classes of the given names. -/
def viewers (first second : String) (page photo : ClassId) : Registration :=
  ⟨((viewerDraft page photo).commit (Registry.reserve (registryWith first second)).2).2, []⟩

/-- `Page` is registered before `Photo`. -/
def pageFirst : Registration := viewers "Page" "Photo" 16 17

/-- `Photo` is registered before `Page`. -/
def photoFirst : Registration := viewers "Photo" "Page" 17 16

theorem hasDeclared_viewers (first second : String) (page photo : ClassId) :
    (viewers first second page photo).HasDeclared
      [viewerDraft page photo, blankDraft 17 second, blankDraft 16 first] := by
  have hblank : ∀ (id : ClassId) (name : String) (r : Registry), (blankDraft id name).IsLegal r :=
    fun id name r => Draft.isLegal_of_headVar? r fun t ht => by cases ht
  have hviewer : ∀ r : Registry, (viewerDraft page photo).IsLegal r := by
    refine fun r => Draft.isLegal_of_headVar? r fun t ht => ?_
    have hall : ((viewerDraft page photo).types ++
        (viewerDraft page photo).typeParams.map TypeParam.bound).all
          (fun t => t.headVar?.isNone) = true := rfl
    exact Option.isNone_iff_eq_none.1 (List.all_eq_true.1 hall t ht)
  exact ((Registration.HasDeclared.new.declare (.inl rfl) .refl (hblank 16 first _)).declare
    (.inl rfl) .refl (hblank 17 second _)).declare (.inl rfl)
      ((((Relation.ReflTransGen.refl.tail (.addMethod _ _)).tail (.addMethod _ _)).tail
        (.addMethod _ _)).tail (.addMethod _ _)) (hviewer _)

theorem namesApart_pageFirst : pageFirst.NamesApart :=
  ⟨_, hasDeclared_viewers .., by decide⟩

theorem fixesReserved_swap : FixesReserved (Equiv.swap 16 17) := by
  intro c hc
  have hne : ∀ d : ClassId, d.isReserved = false → c ≠ d := by
    rintro d hd rfl
    rw [hc] at hd
    cases hd
  exact Equiv.swap_apply_of_ne_of_ne (hne 16 rfl) (hne 17 rfl)

theorem array?_viewers {g : Registration} (hg : g ∈ [pageFirst, photoFirst]) {c : ClassId}
    (hobject : c ≠ ClassId.object) (hstring : c ≠ ClassId.string) : g.registry.array? c = none := by
  have hkeys : g.registry.arrays.keys = [ClassId.object, ClassId.string] := by
    rcases List.mem_pair.1 hg with rfl | rfl <;> decide +kernel
  refine Assoc.find?_eq_none_of_notMem ?_
  rw [hkeys, List.mem_pair]
  exact not_or.2 ⟨hobject, hstring⟩

theorem renumbers_pageFirst : pageFirst.Renumbers (Equiv.swap 16 17) photoFirst := by
  refine ⟨⟨_, _, hasDeclared_viewers .., hasDeclared_viewers .., .cons _ (.swap ..)⟩, ?_,
    fixesReserved_swap, ?_, ?_⟩
  · intro c
    by_cases hobject : c = ClassId.object
    · rw [hobject]
      decide +kernel
    by_cases hstring : c = ClassId.string
    · rw [hstring]
      decide +kernel
    rw [array?_viewers (by simp) hobject hstring, array?_viewers (by simp)
      (mt (fixesReserved_swap.apply_eq_iff rfl).1 hobject)
      (mt (fixesReserved_swap.apply_eq_iff rfl).1 hstring)]
    rfl
  · show 16 + pageFirst.registry.reserved ≤ ClassId.count
    decide +kernel
  · show 16 + photoFirst.registry.reserved ≤ ClassId.count
    decide +kernel

/-- The environment of a registration where overloads take all calls. -/
def viewerEnvironment (g : Registration) : Environment := g.environment fun _ _ => true

theorem acyclic_viewers {g : Registration} (hg : g ∈ [pageFirst, photoFirst]) :
    g.registry.types.Acyclic := by
  rcases List.mem_pair.1 hg with rfl | rfl <;>
    exact Registry.acyclic_of_index_lt (by decide +kernel)

/-- In either order `Viewer` lists the overload of `show` for class 16 first, and that one takes a
call with text. -/
theorem overloads_show {g : Registration} (hg : g ∈ [pageFirst, photoFirst]) :
    (((viewerEnvironment g).ownMembers 18).find? "show").map (fun s =>
      (s.overloads.keys, (s.select (fun _ _ => true) ⟨[ClassId.string]⟩).map Binding.signature))
      = some ([⟨[16]⟩, ⟨[17]⟩], some ⟨[16]⟩) := by
  rw [Environment.ownMembers_eq_insertionSort rfl]
  rcases List.mem_pair.1 hg with rfl | rfl <;> decide +kernel

namespace Session

theorem exists_reply_show {g : Registration} (hg : g ∈ [pageFirst, photoFirst]) :
    ∃ b : Binding, b.signature = ⟨[16]⟩ ∧
      answer (viewerEnvironment g) [] (Request.reply (viewerEnvironment g)
        (.resolve .own 18 "show" ⟨[ClassId.string]⟩)) = .binding (some (some b)) := by
  have hkey : Key.ofClass (viewerEnvironment g).types 18 = .general 18 := by
    rcases List.mem_pair.1 hg with rfl | rfl <;> decide +kernel
  obtain ⟨s, hs, hshow⟩ := Option.map_eq_some_iff.1 (overloads_show hg)
  obtain ⟨b, hb, hsignature⟩ := Option.map_eq_some_iff.1 (Prod.mk.inj hshow).2
  have htable : ((viewerEnvironment g).table (.general 18) .own).find? "show" = some s := hs
  refine ⟨b, hsignature, ?_⟩
  have hac : (viewerEnvironment g).types.Acyclic := acyclic_viewers hg
  rw [answer_reply hac, expected_resolve, hkey, htable]
  exact congrArg (fun found => Reply.binding (some found)) hb

/-- The overloads of `tell`, for class 16 and for text, come in the same order under the other
ids. -/
theorem keepsOrder_tell : ∀ k ∈ (viewerEnvironment pageFirst).sources
    (Key.ofClass pageFirst.registry.types 18) .merged,
      (viewerEnvironment pageFirst).KeepsOrder (Equiv.swap 16 17) k.cls "tell" := by
  decide +kernel

/-- Calls of `tell` are dispatched alike in the two orders, and of `show` at least what is behind
each signature is the same. -/
theorem answerAlike_of_keepsOrder_viewers :
    pageFirst.Renumbers (Equiv.swap 16 17) photoFirst ∧
      pageFirst.registry.types.Acyclic ∧
      (∀ k ∈ (viewerEnvironment pageFirst).sources
        (Key.ofClass pageFirst.registry.types 18) .merged,
          (viewerEnvironment pageFirst).KeepsOrder (Equiv.swap 16 17) k.cls "tell") ∧
      AnswerAlike (Equiv.swap 16 17) (viewerEnvironment pageFirst) (viewerEnvironment photoFirst)
        .merged 18 "tell" ∧
      Option.Rel (Slot.AgreesUnder (Equiv.swap 16 17))
        ((answer (viewerEnvironment pageFirst) []
          (tableOf (viewerEnvironment pageFirst) .merged 18)).find? "show")
        ((answer (viewerEnvironment photoFirst) []
          (tableOf (viewerEnvironment photoFirst) .merged 18)).find? "show") := by
  have htakes : ∀ σ τ : Signature, (fun _ _ => true : Signature → Signature → Bool)
      (σ.renumber (Equiv.swap 16 17)) (τ.renumber (Equiv.swap 16 17))
        = (fun _ _ => true : Signature → Signature → Bool) σ τ := fun _ _ => rfl
  have hac : pageFirst.registry.types.Acyclic := acyclic_viewers (by simp)
  refine ⟨renumbers_pageFirst, hac, keepsOrder_tell, ?_, ?_⟩
  · exact (answerAlike_of_keepsOrder renumbers_pageFirst hac htakes .merged 18 "tell").2
      keepsOrder_tell
  · exact (answerAlike_of_keepsOrder renumbers_pageFirst hac htakes .merged 18 "show").1 [] []

/-- Sessions do not always answer the same under other ids, even if all classes have names of their
own: a call of `show` with text goes to the overload for `Page` where that was registered first, and
otherwise to the one for `Photo`. -/
theorem not_answerAlike :
    ¬∀ (f : Equiv.Perm ClassId) (g g' : Registration)
      (accepts accepts' : Signature → Signature → Bool), g.Renumbers f g' → g.NamesApart →
      g.registry.types.Acyclic →
      (∀ σ τ, accepts' (σ.renumber f) (τ.renumber f) = accepts σ τ) →
      ∀ scope c n, AnswerAlike f (g.environment accepts) (g'.environment accepts') scope c n := by
  intro h
  have halike := h (Equiv.swap 16 17) pageFirst photoFirst (fun _ _ => true) (fun _ _ => true)
    renumbers_pageFirst namesApart_pageFirst (acyclic_viewers (by simp)) (fun _ _ => rfl) .own 18
    "show"
  obtain ⟨found, hreply, hreply'⟩ := halike.call [] [] ⟨[ClassId.string]⟩
  obtain ⟨b, hb, hpage⟩ := exists_reply_show (g := pageFirst) (by simp)
  obtain ⟨b', hb', hphoto⟩ := exists_reply_show (g := photoFirst) (by simp)
  obtain rfl : some (some b) = found := Reply.binding.inj (hpage.symm.trans hreply)
  have hsame : some (some b') = some (some (b.renumber (Equiv.swap 16 17))) :=
    Reply.binding.inj (hphoto.symm.trans hreply')
  obtain rfl := Option.some.inj (Option.some.inj hsame)
  -- the overload for `Page` would be that for `Photo`
  have hsignature : (⟨[16]⟩ : Signature).renumber (Equiv.swap 16 17) = ⟨[16]⟩ := hb ▸ hb'
  exact absurd hsignature (by decide +kernel)

end Session

end ScriptSurface
