import ScriptSurface.Member.Access
import ScriptSurface.Proofs.Assoc
import ScriptSurface.Proofs.Computation
import ScriptSurface.Proofs.Order

/-!
# What members offer and what using them comes to

What a read, a write or a call comes to can be told before the host is reached: nothing, a refusal,
or one call on the host.  This is its `Demand`, and to use a member is to meet the demand
(`Member.read_eq_meet`, `Member.write_eq_meet`, `Member.invoke_eq_meet`).  Whatever the host does,
it can be told from the outcome whether there was nothing, and whether the use was refused, and the
host is reached exactly for the third kind of demand.

So the outcomes agree with what the slot says it offers (`Member.offers`), and the usable names of a
table are those of the members whose uses do not all come to nothing
(`MemberTable.mem_usableNames_iff`).
-/

namespace ScriptSurface

/-! ### Demands -/

/-- What using a member comes to before the host is reached. -/
inductive Demand (ω : Type) where
  /-- There is no such capability. -/
  | absent
  /-- The member cannot be written. -/
  | immutable
  /-- No overload takes the call, whose signature is shown so. -/
  | notApplicable (shape : String)
  /-- A call on the host. -/
  | call (c : HostCall ω)

variable {ω σ ε : Type}

/-- What comes of the answer to a call: that to a write of a field does not count. -/
def HostCall.outcome : HostCall ω → Option ω → Lookup ω
  | set _ _ _, _ => .null
  | _, answer => .present answer

theorem HostCall.outcome_ne_absent (c : HostCall ω) (answer : Option ω) :
    c.outcome answer ≠ .absent := by
  cases c with
  | set => nofun
  | call => exact Lookup.present_ne_absent answer
  | get => exact Lookup.present_ne_absent answer

namespace Slot

variable (s : Slot)

/-- What reading comes to. -/
def readDemand (receiver : Option ω) : Demand ω :=
  match s.getter, s.field with
  | some getter, _ => .call (.call getter.executable receiver [])
  | none, some field => .call (.get field receiver)
  | none, none => .absent

/-- What writing comes to. -/
def writeDemand (receiver value : Option ω) : Demand ω :=
  match s.setter, s.field with
  | some setter, _ => .call (.call setter.executable receiver [value])
  | none, some field => if field.isFinal then .immutable else .call (.set field receiver value)
  | none, none => if s.getter.isSome then .immutable else .absent

/-- What a call comes to when `found` is what dispatch ends with. -/
def callDemand (found : Option Binding) (shape : String) (receiver : Option ω)
    (args : List (Option ω)) : Demand ω :=
  if s.hasVisible then
    match found with
    | some b => .call (.call b.executable receiver args)
    | none => .notApplicable shape
  else .absent

end Slot

namespace Member

/-- Meets a demand on a host. -/
def meet (host : Host ω σ ε) (m : Member) : Demand ω → Use σ ε (Lookup ω)
  | .absent => return .absent
  | .immutable => throw (.immutableWrite m.ownerName m.name)
  | .notApplicable shape => throw (.notApplicable m.ownerName m.name shape)
  | .call c => do return c.outcome (← perform host m.ownerName m.name c)

variable (host : Host ω σ ε) (m : Member)

theorem read_eq_meet (receiver : Option ω) :
    m.read host receiver = m.meet host (m.slot.readDemand receiver) := by
  unfold read Slot.readDemand
  cases m.slot.getter with
  | some getter => rfl
  | none => cases m.slot.field <;> rfl

theorem write_eq_meet (receiver value : Option ω) :
    m.write host receiver value = m.meet host (m.slot.writeDemand receiver value) := by
  unfold write Slot.writeDemand
  cases m.slot.setter with
  | some setter => rfl
  | none =>
    cases m.slot.field with
    | some field =>
      dsimp only
      split_ifs <;> rfl
    | none =>
      dsimp only
      split_ifs <;> rfl

theorem invoke_eq_meet (env : Environment) (s : Signature) (receiver : Option ω)
    (args : List (Option ω)) (memo : Memo) :
    (m.invoke env host s receiver args memo).1
      = m.meet host (m.slot.callDemand (m.slot.resolve env.accepts s memo).1.binding
          (s.display env.types) receiver args) := by
  show m.invokeChosen host _ (m.choose env.accepts s memo).1 receiver args = _
  unfold Slot.callDemand choose
  split_ifs
  · show m.invokeChosen host _ (some (m.slot.resolve env.accepts s memo).1) receiver args = _
    cases hfound : (m.slot.resolve env.accepts s memo).1.binding with
    | none => simp only [invokeChosen, hfound]; rfl
    | some b => simp only [invokeChosen, hfound]; rfl
  · rfl

/-! ### Outcomes -/

/-- The calls on the host that using a member makes. -/
def callsOf {α : Type} (use : Use (σ × List (HostCall ω)) ε α) (state : σ) : List (HostCall ω) :=
  (use (state, [])).2.2

/-- A call on the host ends with its outcome, or with the failure that the host raised. -/
theorem meet_call (c : HostCall ω) (state : σ) :
    m.meet host (.call c) state
      = match host c state with
        | (.ok answer, state) => (.ok (c.outcome answer), state)
        | (.error cause, state) => (.error (.invocation m.ownerName m.name cause), state) := by
  simp only [meet, bind, ExceptT.bind, ExceptT.mk, StateT.bind, perform]
  rcases host c state with ⟨cause | answer, state⟩ <;> rfl

variable (d : Demand ω) (state : σ)

/-- A use comes to nothing only where nothing else was demanded, whatever the host does. -/
theorem meet_eq_absent_iff : (m.meet host d state).1 = .ok .absent ↔ d = .absent := by
  cases d with
  | absent => exact ⟨fun _ => rfl, fun _ => rfl⟩
  | immutable => exact ⟨nofun, nofun⟩
  | notApplicable shape => exact ⟨nofun, nofun⟩
  | call c =>
    refine ⟨fun h => ?_, nofun⟩
    rw [meet_call] at h
    rcases hhost : host c state with ⟨cause | answer, state'⟩ <;> rw [hhost] at h
    · cases h
    · exact absurd (Except.ok.inj h) (c.outcome_ne_absent answer)

/-- The refusal that a demand is met with. -/
def refusal? : Demand ω → Option (Failure ε)
  | .absent => none
  | .immutable => some (.immutableWrite m.ownerName m.name)
  | .notApplicable shape => some (.notApplicable m.ownerName m.name shape)
  | .call _ => none

/-- A failure that is not the host's is the refusal that the demand is met with. -/
theorem meet_eq_error_iff {f : Failure ε} (hf : f.cause? = none) :
    (m.meet host d state).1 = .error f ↔ m.refusal? d = some f := by
  cases d with
  | absent => exact ⟨nofun, nofun⟩
  | immutable => exact ⟨fun h => congrArg some (Except.error.inj h),
      fun h => congrArg Except.error (Option.some.inj h)⟩
  | notApplicable shape => exact ⟨fun h => congrArg some (Except.error.inj h),
      fun h => congrArg Except.error (Option.some.inj h)⟩
  | call c =>
    refine ⟨fun h => ?_, nofun⟩
    rw [meet_call] at h
    rcases hhost : host c state with ⟨cause | answer, state'⟩ <;> rw [hhost] at h
    · obtain rfl := Except.error.inj h
      cases hf
    · cases h

theorem meet_refused_iff {p : Failure ε → Bool} (hp : ∀ f, p f = true → f.cause? = none) :
    (∃ f, (m.meet host d state).1 = .error f ∧ p f = true) ↔
      ∃ f, m.refusal? d = some f ∧ p f = true := by
  constructor
  · rintro ⟨f, hf, hpf⟩
    exact ⟨f, (m.meet_eq_error_iff host d state (hp f hpf)).1 hf, hpf⟩
  · rintro ⟨f, hf, hpf⟩
    exact ⟨f, (m.meet_eq_error_iff host d state (hp f hpf)).2 hf, hpf⟩

/-- The host is called only where a call is demanded, and then once. -/
theorem callsOf_meet :
    callsOf (m.meet host.logged d) state = match d with
      | .call c => [c]
      | _ => [] := by
  cases d with
  | call c =>
    have hlogged : host.logged c (state, []) = ((host c state).1, (host c state).2, [c]) := rfl
    unfold callsOf
    rw [meet_call, hlogged]
    cases (host c state).1 <;> rfl
  | _ => rfl

/-! ### What a member offers -/

/-- The outcomes of using a member agree with what its slot offers. -/
structure Offers (env : Environment) (host : Host ω σ ε) (m : Member)
    (receiver value : Option ω) (s : Signature) (args : List (Option ω)) (memo : Memo)
    (state : σ) : Prop where
  /-- Reading comes to nothing if the member cannot be read. -/
  read_absent : (m.read host receiver state).1 = .ok .absent ↔ m.slot.isReadable = false
  /-- Writing is refused if the member can be read but not written. -/
  write_immutable :
    (∃ f, (m.write host receiver value state).1 = .error f ∧ f.isImmutableWrite = true) ↔
      m.slot.isReadable = true ∧ m.slot.isWritable = false
  /-- Writing comes to nothing if the member can be neither read nor written. -/
  write_absent : (m.write host receiver value state).1 = .ok .absent ↔
    m.slot.isReadable = false ∧ m.slot.isWritable = false
  /-- Writing reaches the host if the member can be written. -/
  write_reaches : callsOf (m.write host.logged receiver value) state ≠ [] ↔
    m.slot.isWritable = true
  /-- Calling comes to nothing if scripts can call no overload. -/
  invoke_absent : ((m.invoke env host s receiver args memo).1 state).1 = .ok .absent ↔
    m.slot.visible = []
  /-- Calling is refused if scripts can call an overload, but none is selected. -/
  invoke_notApplicable :
    (∃ f, ((m.invoke env host s receiver args memo).1 state).1 = .error f ∧
        f.isNotApplicable = true) ↔
      m.slot.visible ≠ [] ∧ (m.slot.resolve env.accepts s memo).1.binding = none

end Member

namespace Slot

variable (s : Slot)

theorem readDemand_eq_absent_iff (receiver : Option ω) :
    s.readDemand receiver = .absent ↔ s.isReadable = false := by
  unfold readDemand isReadable
  cases s.getter <;> cases s.field <;> simp

/-- What writing comes to, told by what the slot offers. -/
theorem writeDemand_cases (receiver value : Option ω) :
    (s.isWritable = true ∧ ∃ c, s.writeDemand receiver value = .call c) ∨
      (s.isReadable = true ∧ s.isWritable = false ∧ s.writeDemand receiver value = .immutable) ∨
      (s.isReadable = false ∧ s.isWritable = false ∧ s.writeDemand receiver value = .absent) := by
  unfold writeDemand isReadable isWritable
  cases s.setter with
  | some setter => exact .inl ⟨rfl, _, rfl⟩
  | none =>
    cases s.field with
    | some field => cases hfinal : field.isFinal <;> simp [hfinal]
    | none => cases s.getter <;> simp

theorem hasVisible_eq_false_iff : s.hasVisible = false ↔ s.visible = [] := by
  simp [hasVisible, visible]

/-- What a call comes to, told by what the slot offers and by what dispatch ends with. -/
theorem callDemand_cases (found : Option Binding) (shape : String) (receiver : Option ω)
    (args : List (Option ω)) :
    (s.visible = [] ∧ s.callDemand found shape receiver args = .absent) ∨
      (s.visible ≠ [] ∧ found = none ∧
        s.callDemand found shape receiver args = .notApplicable shape) ∨
      (s.visible ≠ [] ∧ found ≠ none ∧
        ∃ c, s.callDemand found shape receiver args = .call c) := by
  have hvisible := s.hasVisible_eq_false_iff
  unfold callDemand
  cases h : s.hasVisible with
  | false => exact .inl ⟨hvisible.1 h, rfl⟩
  | true =>
    have hne : s.visible ≠ [] := fun hnil => by
      rw [hvisible.2 hnil] at h
      cases h
    cases found with
    | none => exact .inr (.inl ⟨hne, rfl, rfl⟩)
    | some b => exact .inr (.inr ⟨hne, nofun, _, rfl⟩)

end Slot

/-- Whatever a member is used with, the outcomes agree with what its slot offers. -/
theorem Member.offers (env : Environment) (host : Host ω σ ε) (m : Member)
    (receiver value : Option ω) (s : Signature) (args : List (Option ω)) (memo : Memo)
    (state : σ) : m.Offers env host receiver value s args memo state where
  read_absent := by
    rw [read_eq_meet, meet_eq_absent_iff, Slot.readDemand_eq_absent_iff]
  write_immutable := by
    have hrefused : ∀ f : Failure ε, f.isImmutableWrite = true → f.cause? = none := by
      intro f hf
      cases f <;> first | rfl | cases hf
    rw [write_eq_meet, meet_refused_iff host m _ state hrefused]
    rcases m.slot.writeDemand_cases receiver value with ⟨hw, c, hd⟩ | ⟨hr, hw, hd⟩ | ⟨hr, hw, hd⟩
    · simp [hd, hw, refusal?]
    · simp [hd, hr, hw, refusal?, Failure.isImmutableWrite]
    · simp [hd, hr, refusal?]
  write_absent := by
    rw [write_eq_meet, meet_eq_absent_iff]
    rcases m.slot.writeDemand_cases receiver value with ⟨hw, c, hd⟩ | ⟨hr, hw, hd⟩ | ⟨hr, hw, hd⟩
    · simp [hd, hw]
    · simp [hd, hr]
    · simp [hd, hr, hw]
  write_reaches := by
    rw [write_eq_meet, callsOf_meet]
    rcases m.slot.writeDemand_cases receiver value with ⟨hw, c, hd⟩ | ⟨hr, hw, hd⟩ | ⟨hr, hw, hd⟩
    · simp [hd, hw]
    · simp [hd, hw]
    · simp [hd, hw]
  invoke_absent := by
    rw [invoke_eq_meet, meet_eq_absent_iff]
    rcases m.slot.callDemand_cases (m.slot.resolve env.accepts s memo).1.binding
      (s.display env.types) receiver args with ⟨hv, hd⟩ | ⟨hv, hb, hd⟩ | ⟨hv, hb, c, hd⟩
    · simp [hd, hv]
    · simp [hd, hv]
    · simp [hd, hv]
  invoke_notApplicable := by
    have hrefused : ∀ f : Failure ε, f.isNotApplicable = true → f.cause? = none := by
      intro f hf
      cases f <;> first | rfl | cases hf
    rw [invoke_eq_meet, meet_refused_iff host m _ state hrefused]
    rcases m.slot.callDemand_cases (m.slot.resolve env.accepts s memo).1.binding
      (s.display env.types) receiver args with ⟨hv, hd⟩ | ⟨hv, hb, hd⟩ | ⟨hv, hb, c, hd⟩
    · simp [hd, hv, refusal?]
    · rw [hd]
      simp [hv, hb, refusal?, Failure.isNotApplicable]
    · simp [hd, hb, refusal?]

/-! ### Usable names -/

/-- A slot is usable unless all uses of a member with it come to nothing. -/
theorem Member.Offers.isUsable_iff {env : Environment} {host : Host ω σ ε} {m : Member}
    {receiver value : Option ω} {s : Signature} {args : List (Option ω)} {memo : Memo} {state : σ}
    (h : m.Offers env host receiver value s args memo state) :
    m.slot.isUsable = true ↔
      ¬((m.read host receiver state).1 = .ok .absent ∧
        (m.write host receiver value state).1 = .ok .absent ∧
        ((m.invoke env host s receiver args memo).1 state).1 = .ok .absent) := by
  rw [h.read_absent, h.write_absent, h.invoke_absent, ← m.slot.hasVisible_eq_false_iff,
    Slot.isUsable]
  cases m.slot.isReadable <;> cases m.slot.isWritable <;> cases m.slot.hasVisible <;> simp

namespace MemberTable

variable (t : MemberTable)

theorem mem_usableNames_iff (n : String) :
    n ∈ t.usableNames ↔ ∃ slot, t.find? n = some slot ∧ slot.isUsable = true := by
  have hperm : t.usableNames.Perm ((t.toList.filter fun e => e.2.isUsable).map Prod.fst) :=
    Order.sort_perm _ _
  rw [hperm.mem_iff]
  simp [Assoc.mem_toList_iff]

/-- The usable names are in strictly ascending order. -/
theorem pairwise_usableNames :
    t.usableNames.Pairwise fun a b => Order.texts a b = .lt :=
  Order.pairwise_sort_of_nodup Order.texts
    ((List.filter_sublist.map Prod.fst).nodup t.nodup_keys)

end MemberTable

end ScriptSurface
