import Mathlib.Logic.Equiv.Defs
import ScriptSurface.Proofs.TypeExpr.Erasure
import ScriptSurface.Registry.Draft

/-!
# Other ids for the same classes

Ids tell classes apart and mean nothing else, but for the reserved ones.  A permutation of ids takes
everything that is said of classes to the same under other ids: types and declarations here, and
what is made of them where it is defined.

Erasure goes along.  Where the bounds of variables are the same under other ids, a type erases to
the same class and as many brackets (`TypeExpr.ErasesTo.renumber`).  The one class that erasure
brings in by itself is the universal base type, whose id has to stay.
-/

namespace ScriptSurface

section Definitions

variable (f : Equiv.Perm ClassId)

/-! ### Types -/

/-- The variable of the class under its other id. -/
def TypeVar.renumber (v : TypeVar) : TypeVar := { v with owner := f v.owner }

/-- The kind, with the component of an array class under its other id. -/
def Kind.renumber : Kind → Kind
  | .array c => .array (f c)
  | k => k

namespace TypeExpr

mutual

/-- The type with classes under their other ids. -/
def renumber : TypeExpr → TypeExpr
  | unknown => unknown
  | plain c s => plain (f c) s
  | array t s => array (renumber t) s
  | applied raw ts s => applied (f raw) (renumberAll ts) s
  | var v s => var (v.renumber f) s

/-- The types with classes under their other ids. -/
def renumberAll : List TypeExpr → List TypeExpr
  | [] => []
  | t :: ts => renumber t :: renumberAll ts

end

end TypeExpr

/-! ### Declarations -/

/-- The type parameter with classes under their other ids. -/
def TypeParam.renumber (p : TypeParam) : TypeParam := { p with bound := p.bound.renumber f }

/-- The field with classes under their other ids. -/
def FieldDecl.renumber (d : FieldDecl) : FieldDecl :=
  { d with
    declaring := f d.declaring
    type := f d.type
    genericType := d.genericType.renumber f }

/-- The callable with classes under their other ids. -/
def Executable.renumber (m : Executable) : Executable :=
  { m with
    declaring := f m.declaring
    params := m.params.map f
    genericParams := m.genericParams.map (TypeExpr.renumber f)
    returns := f m.returns
    genericReturn := m.genericReturn.renumber f }

/-- The entry with classes under their other ids. -/
def ClassEntry.renumber (e : ClassEntry) : ClassEntry where
  name := e.name
  kind := e.kind.renumber f
  superclass := e.superclass.map f
  interfaces := e.interfaces.map f
  typeParams := e.typeParams.map (TypeParam.renumber f)
  genericSuperclass := e.genericSuperclass.map (TypeExpr.renumber f)
  genericInterfaces := e.genericInterfaces.map (TypeExpr.renumber f)
  fields := e.fields.map (FieldDecl.renumber f)
  methods := e.methods.map (Executable.renumber f)
  constructors := e.constructors.map (Executable.renumber f)
  strippedPrefixes := e.strippedPrefixes

/-- The draft with classes under their other ids, its own included. -/
def Draft.renumber (d : Draft) : Draft where
  id := f d.id
  name := d.name
  kind := d.kind.renumber f
  superclass := d.superclass.map (TypeExpr.renumber f)
  interfaces := d.interfaces.map (TypeExpr.renumber f)
  typeParams := d.typeParams.map (TypeParam.renumber f)
  fields := d.fields.map (FieldDecl.renumber f)
  methods := d.methods.map (Executable.renumber f)
  constructors := d.constructors.map (Executable.renumber f)
  strippedPrefixes := d.strippedPrefixes

end Definitions

/-! ### Reserved ids -/

/-- The types every host provides keep their ids. -/
def FixesReserved (f : Equiv.Perm ClassId) : Prop := ∀ c : ClassId, c.isReserved = true → f c = c

namespace FixesReserved

variable {f : Equiv.Perm ClassId} {c d : ClassId}

theorem object (h : FixesReserved f) : f ClassId.object = ClassId.object := h _ rfl

/-- No other class takes a reserved id. -/
theorem apply_eq_iff (h : FixesReserved f) (hd : d.isReserved = true) : f c = d ↔ c = d := by
  constructor
  · intro hc
    exact f.injective (hc.trans (h d hd).symm)
  · rintro rfl
    exact h c hd

theorem isReserved_apply (h : FixesReserved f) : (f c).isReserved = c.isReserved := by
  rw [Bool.eq_iff_iff]
  constructor
  · intro hc
    have hfixed : c = f c := (h.apply_eq_iff hc).1 rfl
    rwa [← hfixed] at hc
  · intro hc
    rwa [h c hc]

theorem isVoid_apply (h : FixesReserved f) : (f c).isVoid = c.isVoid := by
  have hvoid : f c = ClassId.void ↔ c = ClassId.void := h.apply_eq_iff rfl
  have hboxed : f c = ClassId.boxedVoid ↔ c = ClassId.boxedVoid := h.apply_eq_iff rfl
  simp only [ClassId.isVoid, hvoid, hboxed]

theorem isBoolean_apply (h : FixesReserved f) : (f c).isBoolean = c.isBoolean := by
  have hboolean : f c = ClassId.boolean ↔ c = ClassId.boolean := h.apply_eq_iff rfl
  have hboxed : f c = ClassId.boxedBoolean ↔ c = ClassId.boxedBoolean := h.apply_eq_iff rfl
  simp only [ClassId.isBoolean, hboolean, hboxed]

end FixesReserved

/-! ### Erasure -/

section Erasure

variable {f : Equiv.Perm ClassId} {bounds bounds' : TypeVar → Option TypeExpr} {t : TypeExpr}
  {v : TypeVar} {c c' : ClassId} {k k' : ℕ}

theorem TypeExpr.headVar?_renumber (t : TypeExpr) :
    (t.renumber f).headVar? = t.headVar?.map (TypeVar.renumber f) := by
  induction t using TypeExpr.induct with
  | array t s ih => simpa [renumber, headVar?] using ih
  | _ => simp [renumber, headVar?]

theorem TypeExpr.headClass_renumber (hf : FixesReserved f) (t : TypeExpr) :
    (t.renumber f).headClass = f t.headClass := by
  induction t using TypeExpr.induct with
  | array t s ih => simpa [renumber, headClass] using ih
  | _ => simp [renumber, headClass, hf.object]

theorem TypeExpr.brackets_renumber (t : TypeExpr) : (t.renumber f).brackets = t.brackets := by
  induction t using TypeExpr.induct with
  | array t s ih => simpa [renumber, brackets] using ih
  | _ => simp [renumber, brackets]

theorem TypeExpr.isUnknown_renumber (t : TypeExpr) : (t.renumber f).isUnknown = t.isUnknown := by
  cases t <;> simp [renumber, isUnknown]

theorem TypeVar.Erases.renumber (hf : FixesReserved f)
    (hbounds : ∀ v, bounds' (v.renumber f) = (bounds v).map (TypeExpr.renumber f))
    (h : v.Erases bounds c k) : (v.renumber f).Erases bounds' (f c) k := by
  induction h with
  | free hv =>
    have hfree := Erases.free (f := bounds') (by rw [hbounds, hv]; rfl)
    rwa [hf.object]
  | @cls v b hv hb =>
    have hcls := Erases.cls (f := bounds') (v := v.renumber f) (b := b.renumber f)
      (by rw [hbounds, hv]; rfl) (by rw [b.headVar?_renumber, hb]; rfl)
    rwa [b.headClass_renumber hf, b.brackets_renumber] at hcls
  | @next v w b c k hv hb hw ih =>
    have hnext := Erases.next (f := bounds') (v := v.renumber f) (b := b.renumber f)
      (by rw [hbounds, hv]; rfl) (by rw [b.headVar?_renumber, hb]; rfl) ih
    rwa [b.brackets_renumber] at hnext

/-- Where the bounds are the same under other ids, a type erases to the same. -/
theorem TypeExpr.ErasesTo.renumber (hf : FixesReserved f)
    (hbounds : ∀ v, bounds' (v.renumber f) = (bounds v).map (TypeExpr.renumber f))
    (h : t.ErasesTo bounds c k) : (t.renumber f).ErasesTo bounds' (f c) k := by
  unfold ErasesTo at h ⊢
  rw [t.headVar?_renumber, t.headClass_renumber hf, t.brackets_renumber]
  cases hhead : t.headVar? with
  | none =>
    rw [hhead] at h
    exact ⟨congrArg f h.1, h.2⟩
  | some v =>
    rw [hhead] at h
    obtain ⟨j, hj, rfl⟩ := h
    exact ⟨j, hj.renumber hf hbounds, rfl⟩

theorem TypeExpr.ErasesTo.unique (h : t.ErasesTo bounds c k) (h' : t.ErasesTo bounds c' k') :
    c = c' ∧ k = k' := by
  unfold ErasesTo at h h'
  cases hhead : t.headVar? with
  | none =>
    rw [hhead] at h h'
    exact ⟨h.1.trans h'.1.symm, h.2.trans h'.2.symm⟩
  | some v =>
    rw [hhead] at h h'
    obtain ⟨j, hj, rfl⟩ := h
    obtain ⟨j', hj', rfl⟩ := h'
    obtain ⟨rfl, rfl⟩ := hj.unique hj'
    exact ⟨rfl, rfl⟩

end Erasure

end ScriptSurface
