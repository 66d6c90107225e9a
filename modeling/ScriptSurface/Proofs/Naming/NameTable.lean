import ScriptSurface.Naming.NameTable
import ScriptSurface.Proofs.Naming
import ScriptSurface.Proofs.Session.Members

/-!
# Names from tables

A table of names comes of edits, of which the last one for a member of a class counts
(`NameTable.name?_ofEdits`).  What it answers for a member is the name given to the first class that
there is one for, in the order in which classes are searched: the class itself, what is searched for
its superclass, and what is searched for its interfaces, but never the universal base type
(`HostTypes.IsSearchOrder`).  In an acyclic hierarchy there is exactly one such order, and
`NameTable.search_eq` says that the search goes by it.

`NameTable.names_ofEdits` puts this together with how a name is resolved from what is answered.
-/

namespace ScriptSurface

/-! ### The order of a search -/

namespace HostTypes

/-- The classes that are searched for a class, in order: the class itself, what is searched for its
superclass, then what is searched for each of its interfaces.  The universal base type is never
searched. -/
structure IsSearchOrder (h : HostTypes) (order : ClassId → List ClassId) : Prop where
  /-- Nothing is searched for the universal base type. -/
  object : order ClassId.object = []
  /-- A class comes before what is searched for its supertypes, the superclass first. -/
  step : ∀ c, c ≠ ClassId.object →
    order c = c :: ((h.superclass c).toList ++ h.interfaces c).flatMap order

/-- The classes that are searched for a class through so many generations. -/
def searchedWithin (h : HostTypes) : ℕ → ClassId → List ClassId
  | 0, _ => []
  | n + 1, c =>
    if c = ClassId.object then []
    else c :: ((h.superclass c).toList ++ h.interfaces c).flatMap (searchedWithin h n)

variable {h : HostTypes}

theorem searchedWithin_eq_of_rank {rank : ClassId → ℕ}
    (hrank : ∀ c, ∀ p ∈ h.supertypes c, rank p < rank c) {n m : ℕ} {c : ClassId}
    (hn : rank c < n) (hm : rank c < m) : h.searchedWithin n c = h.searchedWithin m c := by
  induction n generalizing m c with
  | zero => omega
  | succ n ih =>
    obtain ⟨m, rfl⟩ : ∃ k, m = k + 1 := ⟨m - 1, by omega⟩
    rw [searchedWithin, searchedWithin]
    split_ifs
    · rfl
    · congr 1
      refine List.flatMap_congr fun p hp => ?_
      have hlt := hrank c p (mem_supertypes_iff.1 hp)
      exact ih (by omega) (by omega)

theorem isSearchOrder_searchedWithin (hac : h.Acyclic) :
    h.IsSearchOrder (h.searchedWithin ClassId.count) where
  object := by
    obtain ⟨n, hn⟩ : ∃ n, ClassId.count = n + 1 := ⟨_, rfl⟩
    rw [hn, searchedWithin, if_pos rfl]
  step c hc := by
    obtain ⟨rank, hrank⟩ := hac.exists_rank
    obtain ⟨n, hn⟩ : ∃ n, ClassId.count = n + 1 := ⟨_, rfl⟩
    have hlevel : ∀ p ∈ (h.superclass c).toList ++ h.interfaces c,
        h.searchedWithin n p = h.searchedWithin ClassId.count p := by
      intro p hp
      have hlt := (hrank c).2 p (mem_supertypes_iff.1 hp)
      have hc := (hrank c).1
      exact searchedWithin_eq_of_rank (fun c => (hrank c).2) (by omega) (hrank p).1
    rw [← List.flatMap_congr hlevel, hn, searchedWithin, if_neg hc]

/-- The description leaves no choice. -/
theorem IsSearchOrder.unique (hac : h.Acyclic) {order order' : ClassId → List ClassId}
    (horder : h.IsSearchOrder order) (horder' : h.IsSearchOrder order') : order = order' := by
  obtain ⟨rank, hrank⟩ := hac.exists_rank
  funext c
  induction hc : rank c using Nat.strong_induction_on generalizing c with
  | _ n ih =>
    by_cases hobject : c = ClassId.object
    · rw [hobject, horder.object, horder'.object]
    · rw [horder.step c hobject, horder'.step c hobject]
      congr 1
      refine List.flatMap_congr fun p hp => ?_
      have hlt := (hrank c).2 p (mem_supertypes_iff.1 hp)
      exact ih (rank p) (by omega) p rfl

end HostTypes

namespace NameTable

/-- The search goes by the order and stops at the first answer, blank or not. -/
theorem search_eq (h : HostTypes) (answer : ClassId → Option String) (n : ℕ) (c : ClassId) :
    search h answer n c = (h.searchedWithin n c).findSome? answer := by
  induction n generalizing c with
  | zero => rfl
  | succ n ih =>
    have hsearch : search h answer n = fun c => (h.searchedWithin n c).findSome? answer :=
      funext ih
    rw [search, HostTypes.searchedWithin]
    split_ifs
    · rfl
    · rw [List.findSome?_cons, findSome?_flatMap, List.findSome?_append, ← hsearch]
      cases answer c with
      | some name => rfl
      | none => cases h.superclass c <;> simp

/-! ### Edits -/

/-- A member that can be given a name: a field by its raw name, a method by its raw name and its
erased parameters. -/
inductive Target where
  /-- A field. -/
  | field (raw : String)
  /-- A method. -/
  | method (raw : String) (params : List ClassId)
deriving DecidableEq

/-- A name given to a member of a class. -/
structure Edit where
  /-- The class that declares the member. -/
  cls : ClassId
  /-- The member. -/
  target : Target
  /-- The name. -/
  name : String

/-- The table with one more name. -/
def edit (t : NameTable) (e : Edit) : NameTable :=
  match e.target with
  | .field raw => t.nameField e.cls raw e.name
  | .method raw params => t.nameMethod e.cls raw params e.name

/-- The table that comes of edits. -/
def ofEdits (edits : List Edit) : NameTable := edits.foldl edit empty

/-- The name of a member of a class in a table. -/
def name? (t : NameTable) (c : ClassId) : Target → Option String
  | .field raw => t.fields.find? (c, raw)
  | .method raw params => t.methods.find? (c, raw, params)

/-- The name last given to a member of a class. -/
def lastName? (edits : List Edit) (target : Target) (c : ClassId) : Option String :=
  (edits.reverse.find? fun e => e.cls = c ∧ e.target = target).map Edit.name

theorem name?_edit (t : NameTable) (e : Edit) (c : ClassId) (target : Target) :
    (t.edit e).name? c target
      = if e.cls = c ∧ e.target = target then some e.name else t.name? c target := by
  obtain ⟨cls, target', name⟩ := e
  cases target' <;> cases target <;>
    simp [edit, name?, nameField, nameMethod, Assoc.find?_put]

theorem name?_ofEdits (edits : List Edit) (c : ClassId) (target : Target) :
    (ofEdits edits).name? c target = lastName? edits target c := by
  induction edits using List.reverseRecOn with
  | nil => cases target <;> rfl
  | append_singleton edits e ih =>
    rw [ofEdits, List.foldl_append, lastName?, find?_reverse_append_singleton]
    show ((ofEdits edits).edit e).name? c target = _
    rw [name?_edit, ih]
    split_ifs <;> simp_all [lastName?]

/-! ### Names from edits -/

/-- What a renamer answers for a member of a class, and the name the member is then exposed under,
where names are given by edits and classes are searched in some order. -/
structure Names (edits : List Edit) (searched : List ClassId) (target : Target)
    (hint : Option String) (prefixes : List String) (raw : String) (answer : Option String)
    (visible : String) : Prop where
  /-- The answer is the name last given to the first class that has been given one. -/
  answered : answer = searched.findSome? (lastName? edits target)
  /-- The name is resolved from the hint, the answer and what is left of the raw name. -/
  resolves : ∃ rest, Naming.IsRemainder raw prefixes rest ∧
    Naming.Resolves raw (hint.toList ++ answer.toList ++ rest.toList) visible
  /-- Only a blank raw name is exposed as a blank name. -/
  not_blank : ¬Text.Blank raw → ¬Text.Blank visible
  /-- Only a raw name has blank characters at its ends. -/
  trimmed : visible ≠ raw → Text.Trimmed visible

theorem names_visible {edits : List Edit} {searched : List ClassId} {target : Target}
    {answer : Option String} (hanswer : answer = searched.findSome? (lastName? edits target))
    (hint : Option String) (prefixes : List String) (raw : String) :
    Names edits searched target hint prefixes raw answer
      (Naming.visible hint answer prefixes raw) := by
  have hresolves := Naming.resolves_visible hint answer prefixes raw
  exact ⟨hanswer, ⟨_, Naming.isRemainder_remainder? raw prefixes, hresolves⟩, hresolves.not_blank,
    hresolves.trimmed⟩

/-- **Names resolve end to end.**  In an acyclic hierarchy there is an order in which classes are
searched, and only one.  Whatever names were given, the answer for a member of a class is the name
last given to the first class in this order that has been given one.  The member is exposed under
the first of the hint, the answer and what is left of its raw name that is not blank, trimmed, or
else under its raw name. -/
theorem names_ofEdits (h : HostTypes) (hac : h.Acyclic) (edits : List Edit) :
    (∃! order, h.IsSearchOrder order) ∧
      ∀ order, h.IsSearchOrder order → ∀ (c : ClassId) (prefixes : List String),
      (∀ f : FieldDecl,
        Names edits (order c) (.field f.name) f.rename prefixes f.name
          (((ofEdits edits).renamer h).fieldName c f)
          (Naming.ofField ((ofEdits edits).renamer h) c prefixes f)) ∧
      ∀ m : Executable,
        Names edits (order c) (.method m.name m.params) m.rename prefixes m.name
          (((ofEdits edits).renamer h).methodName c m)
          (Naming.ofMethod ((ofEdits edits).renamer h) c prefixes m) := by
  have hanswer : ∀ target c, search h (fun d => (ofEdits edits).name? d target) ClassId.count c
      = (h.searchedWithin ClassId.count c).findSome? (lastName? edits target) := by
    intro target c
    rw [search_eq]
    congr 1
    funext d
    exact name?_ofEdits edits d target
  have hexists := HostTypes.isSearchOrder_searchedWithin hac
  refine ⟨⟨_, hexists, fun order horder => horder.unique hac hexists⟩,
    fun order horder c prefixes => ?_⟩
  obtain rfl := horder.unique hac hexists
  refine ⟨fun f => ?_, fun m => ?_⟩
  · exact names_visible (hanswer (.field f.name) c) f.rename prefixes f.name
  · exact names_visible (hanswer (.method m.name m.params) c) m.rename prefixes m.name

/-- Two names given to `label()` of interface 16, one after the other. -/
def diamondEdits : List Edit :=
  [⟨16, .method "label" [], "tag"⟩, ⟨16, .method "label" [], " mark "⟩]

/-- In `diamond`, the name last given to `label()` of interface 16 is the answer for class 18, which
comes by the interface through class 17, and the method is exposed under it. -/
theorem names_ofEdits_diamond :
    diamond.Acyclic ∧
      ((ofEdits diamondEdits).renamer diamond).methodName 18 (labelMethod 17) = some " mark " ∧
      Naming.ofMethod ((ofEdits diamondEdits).renamer diamond) 18 ["la"] (labelMethod 17)
        = "mark" := by
  obtain ⟨⟨order, horder, -⟩, hnames⟩ := names_ofEdits diamond acyclic_diamond diamondEdits
  have hinterface : order 16 = [16] := horder.step 16 (by decide)
  have hparent : order 17 = [17, 16] := by
    rw [horder.step 17 (by decide)]
    show 17 :: (order ClassId.object ++ (order 16 ++ [])) = _
    rw [horder.object, hinterface]
    rfl
  have hclass : order 18 = [18, 17, 16, 16] := by
    rw [horder.step 18 (by decide)]
    show 18 :: (order 17 ++ (order 16 ++ [])) = _
    rw [hparent, hinterface]
    rfl
  have hmethod := (hnames order horder 18 ["la"]).2 (labelMethod 17)
  have hanswer := hmethod.answered
  rw [hclass] at hanswer
  have hmark : ((ofEdits diamondEdits).renamer diamond).methodName 18 (labelMethod 17)
      = some " mark " := hanswer.trans (by decide)
  obtain ⟨rest, -, hresolves⟩ := hmethod.resolves
  rw [hmark] at hresolves
  have hnot : ¬Text.Blank " mark " := fun hblank =>
    absurd (hblank 'm' (by decide)) (by decide)
  exact ⟨acyclic_diamond, hmark, hresolves.unique (.take hnot (Text.isTrim_iff.2 (by decide)))⟩

end NameTable

end ScriptSurface
