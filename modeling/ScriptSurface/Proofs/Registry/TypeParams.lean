import Mathlib.Data.Nat.ModEq
import ScriptSurface.Proofs.Registry.Growth

/-!
# The variables a draft answers

For each type parameter that a draft is told it answers a variable of its class, at the position the
parameter comes to stand at.  Positions are counted modulo 2¹⁶ (`TypeVar.at_eq_iff`), so the
variables are all different as long as there are at most 2¹⁶ of them, and not any longer
(`Draft.Answered.nodup_iff`).

Whatever else the draft declares in between, it keeps the parameters in the order it was told them
(`Draft.Answered.typeParams`): up to 2¹⁶ of them, each is found where its variable says
(`Draft.Answered.getElem?_typeParams`).  A commit registers them as they are, for good
(`Draft.typeParams_of_grows_commit`).
-/

namespace ScriptSurface

/-! ### Positions -/

/-- Positions are told apart modulo 2¹⁶. -/
theorem TypeVar.at_eq_iff (owner : ClassId) (i j : ℕ) :
    TypeVar.at owner i = .at owner j ↔ i ≡ j [MOD UInt16.size] := by
  have hindex : TypeVar.at owner i = .at owner j ↔ UInt16.ofNat i = UInt16.ofNat j := by
    simp [TypeVar.at]
  rw [hindex, ← UInt16.toNat_inj, UInt16.toNat_ofNat', UInt16.toNat_ofNat']
  rfl

theorem TypeVar.toNat_index_at (owner : ClassId) (i : ℕ) :
    (TypeVar.at owner i).index.toNat = i % UInt16.size :=
  UInt16.toNat_ofNat'

namespace Draft

/-- The parameter that a draft was told, with the variable it answered. -/
structure Answer where
  /-- The variable, as a type. -/
  var : TypeExpr
  /-- The name and the bound that it was told. -/
  param : TypeParam

/-- A draft was started, and told type parameters one after the other, between whatever else it was
told; these are its answers. -/
inductive Answered : Draft → List Answer → Prop where
  /-- A draft that was just started has answered nothing. -/
  | start (kind : Kind) (name : String) (r : Registry) : Answered (Draft.start kind name r).1 []
  /-- It answers a type parameter. -/
  | param {d : Draft} {answers : List Answer} (h : Answered d answers) (stamp : Stamp)
    (name : String) (bound : TypeExpr) :
    Answered (d.addTypeParam stamp name bound).2
      (answers ++ [⟨(d.addTypeParam stamp name bound).1, ⟨name, bound⟩⟩])
  /-- It declares something else. -/
  | other {d d' : Draft} {answers : List Answer} (h : Answered d answers) (hedit : d.Edit d')
    (hparams : d'.typeParams = d.typeParams) : Answered d' answers

namespace Answered

variable {d : Draft} {answers : List Answer}

/-- The draft keeps what it was told. -/
theorem typeParams (h : d.Answered answers) : d.typeParams = answers.map Answer.param := by
  induction h with
  | start kind name r => rfl
  | param h stamp name bound ih =>
    rw [List.map_append, ← ih]
    rfl
  | other h hedit hparams ih => rw [hparams, ih]

theorem length_typeParams (h : d.Answered answers) : d.typeParams.length = answers.length := by
  rw [h.typeParams, List.length_map]

/-- Each answer is the variable at the position of its parameter. -/
theorem vars (h : d.Answered answers) : answers.map (fun a => a.var.asVar?)
    = (List.range answers.length).map fun i => some (.at d.id i) := by
  induction h with
  | start kind name r => rfl
  | @param d answers h stamp name bound ih =>
    rw [List.map_append, ih, List.length_append, List.length_singleton, List.range_succ,
      List.map_append, List.map_singleton, List.map_singleton, ← h.length_typeParams]
    rfl
  | other h hedit hparams ih => rw [ih, hedit.same.1]

theorem asVar?_getElem (h : d.Answered answers) {i : ℕ} {a : Answer} (ha : answers[i]? = some a) :
    a.var.asVar? = some (.at d.id i) := by
  obtain ⟨hi, rfl⟩ := List.getElem?_eq_some_iff.1 ha
  have hvars := congrArg (fun l => l[i]?) h.vars
  simpa [hi] using hvars

/-- The variables are all different exactly if there are no more of them than positions. -/
theorem nodup_iff (h : d.Answered answers) :
    (answers.map fun a => a.var.asVar?).Nodup ↔ answers.length ≤ UInt16.size := by
  rw [h.vars, List.nodup_map_iff_inj_on List.nodup_range]
  constructor
  · intro hinj
    by_contra hlt
    have hmem : UInt16.size ∈ List.range answers.length := List.mem_range.2 (not_le.1 hlt)
    have hzero : 0 ∈ List.range answers.length := List.mem_range.2 (by omega)
    -- position 2¹⁶ is position 0 over again
    have hsame : TypeVar.at d.id UInt16.size = .at d.id 0 :=
      (TypeVar.at_eq_iff d.id _ _).2 (by decide)
    exact absurd (hinj _ hmem _ hzero (congrArg some hsame)) (by decide)
  · intro hle i hi j hj hsame
    have hmod := (TypeVar.at_eq_iff d.id i j).1 (Option.some.inj hsame)
    have hi := List.mem_range.1 hi
    have hj := List.mem_range.1 hj
    exact hmod.eq_of_lt_of_lt (by omega) (by omega)

/-- Up to 2¹⁶ parameters are each found where the variable says. -/
theorem getElem?_typeParams (h : d.Answered answers) (hle : answers.length ≤ UInt16.size) {i : ℕ}
    {a : Answer} (ha : answers[i]? = some a) :
    d.typeParams[(TypeVar.at d.id i).index.toNat]? = some a.param := by
  have hi : i < answers.length := (List.getElem?_eq_some_iff.1 ha).1
  rw [TypeVar.toNat_index_at, Nat.mod_eq_of_lt (by omega), h.typeParams, List.getElem?_map, ha]
  rfl

end Answered

/-! ### Several at once -/

@[simp] theorem addTypeParams_nil (d : Draft) : d.addTypeParams [] = ([], d) := by
  simp [addTypeParams]

/-- To tell a draft several type parameters is to tell it one after the other. -/
theorem addTypeParams_append_singleton (d : Draft) (params : List (Stamp × TypeParam))
    (stamp : Stamp) (p : TypeParam) :
    d.addTypeParams (params ++ [(stamp, p)])
      = ((d.addTypeParams params).1
            ++ [((d.addTypeParams params).2.addTypeParam stamp p.name p.bound).1],
          ((d.addTypeParams params).2.addTypeParam stamp p.name p.bound).2) := by
  simp [addTypeParams, addTypeParam, List.mapIdx_append]

/-- What a draft answers for several type parameters. -/
theorem Answered.addTypeParams {d : Draft} {answers : List Answer} (h : d.Answered answers)
    (params : List (Stamp × TypeParam)) :
    (d.addTypeParams params).2.Answered
      (answers ++ List.zipWith Answer.mk (d.addTypeParams params).1 (params.map Prod.snd)) := by
  induction params using List.reverseRecOn with
  | nil => simpa using h
  | append_singleton params p ih =>
    obtain ⟨stamp, p⟩ := p
    have hlength : (d.addTypeParams params).1.length = (params.map Prod.snd).length := by
      simp [Draft.addTypeParams]
    rw [addTypeParams_append_singleton, List.map_append, List.zipWith_append hlength,
      ← List.append_assoc]
    exact ih.param stamp p.name p.bound

end Draft

/-- A draft can be told any type parameters. -/
theorem Registration.run_addTypeParams (r : Registry) (before after : List Draft) (d : Draft)
    (params : List (Stamp × TypeParam)) :
    Relation.ReflTransGen Step ⟨r, before ++ d :: after⟩
      ⟨r, before ++ (d.addTypeParams params).2 :: after⟩ := by
  induction params using List.reverseRecOn with
  | nil =>
    rw [Draft.addTypeParams_nil]
  | append_singleton params p ih =>
    rw [Draft.addTypeParams_append_singleton]
    exact ih.tail (.edit r before after (.addTypeParam _ p.1 p.2.name p.2.bound))

/-! ### After the commit -/

/-- A commit registers the parameters, and what is registered later leaves them as they are. -/
theorem Draft.typeParams_of_grows_commit (d : Draft) {r r' : Registry}
    (hgrows : (d.commit r).2.Grows r') : r'.types.typeParams d.id = d.typeParams := by
  obtain ⟨s, e, -, hcommit, -, hparams, -⟩ := d.exists_commit_eq r
  have hentry : (d.commit r).2.entryOf? d.id = some e := by
    rw [hcommit, Registry.entryOf?_register, if_pos rfl]
  show ((r'.entryOf? d.id).map ClassEntry.typeParams).getD [] = _
  rw [hgrows.entryOf? hentry]
  exact hparams

end ScriptSurface
