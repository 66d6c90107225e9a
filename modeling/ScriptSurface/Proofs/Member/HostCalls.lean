import ScriptSurface.Proofs.Member.Access
import ScriptSurface.Proofs.Member.Dispatch

/-!
# The host call behind a use

To use a member is to make one call on the host, or none: a read goes to the getter or the field, a
write to the setter or the field, a call to the overload that is selected, and an instance comes
from the constructor with exactly the signature.  `Member.CallsOnce` says what comes of a use for
which a call is selected, or none is, for any host.  Meeting a demand is such a use
(`Member.callsOnce_meet`), and so all four are.
-/

namespace ScriptSurface

variable {ω σ ε : Type}

/-! ### What is answered for a call -/

/-- The call on the host, if one is demanded. -/
def Demand.call? : Demand ω → Option (HostCall ω)
  | call c => some c
  | _ => none

/-- Whether a use came to nothing, was refused, or found no overload. -/
def isDeclined : Except (Failure ε) (Lookup ω) → Bool
  | .ok .absent => true
  | .ok _ => false
  | .error f => f.isImmutableWrite || f.isNotApplicable

/-- What is answered for a call on the host: what comes of its answer, or what it raised. -/
def HostCall.report (owner member : String) (c : HostCall ω) :
    Except ε (Option ω) → Except (Failure ε) (Lookup ω)
  | .ok answer => .ok (c.outcome answer)
  | .error cause => .error (.invocation owner member cause)

namespace HostCall

variable {owner member : String} (c : HostCall ω)

theorem isDeclined_report (r : Except ε (Option ω)) :
    isDeclined (c.report owner member r) = false := by
  cases r with
  | error cause => rfl
  | ok answer =>
    have habsent := c.outcome_ne_absent answer
    show isDeclined (.ok (c.outcome answer)) = false
    cases h : c.outcome answer with
    | absent => exact absurd h habsent
    | null => rfl
    | value v => rfl

theorem report_eq_invocation_iff {r : Except ε (Option ω)} {owner' member' : String} {cause : ε} :
    c.report owner member r = .error (.invocation owner' member' cause) ↔
      owner' = owner ∧ member' = member ∧ r = .error cause := by
  cases r with
  | error cause' =>
    constructor
    · rintro ⟨⟩
      exact ⟨rfl, rfl, rfl⟩
    · rintro ⟨rfl, rfl, ⟨⟩⟩
      rfl
  | ok answer => exact ⟨nofun, fun h => nomatch h.2.2⟩

end HostCall

/-- What creating an instance comes to. -/
def Overloads.constructDemand (constructors : Overloads) (s : Signature) (args : List (Option ω)) :
    Demand ω :=
  (constructors.find? s).elim .absent fun b => .call (.call b.executable none args)

/-! ### One call or none -/

namespace Member

/-- A use of a member makes the call selected on the host and no other, and what comes of it is what
comes of the call; it makes none and leaves the host alone if none is selected. -/
structure CallsOnce (host : Host ω σ ε) (owner member : String) (selected : Option (HostCall ω))
    (use : Use σ ε (Lookup ω)) (logged : Use (σ × List (HostCall ω)) ε (Lookup ω)) (state : σ) :
    Prop where
  /-- The calls on the host are the one selected. -/
  calls : callsOf logged state = selected.toList
  /-- A log of the calls makes no difference. -/
  logged_eq : (logged (state, [])).1 = (use state).1 ∧ (logged (state, [])).2.1 = (use state).2
  /-- The use is declined exactly if no call is selected. -/
  declined_iff : isDeclined (use state).1 = true ↔ selected = none
  /-- The host's state then stays as it is. -/
  unchanged : selected = none → (use state).2 = state
  /-- Otherwise it is as the call leaves it. -/
  changed : ∀ c, selected = some c → (use state).2 = (host c state).2
  /-- What the call raises is passed on, under the names of the type and of the member, and nothing
  else is reported as raised. -/
  raised_iff : ∀ owner' member' cause, (use state).1 = .error (.invocation owner' member' cause) ↔
    owner' = owner ∧ member' = member ∧ ∃ c, selected = some c ∧ (host c state).1 = .error cause
  /-- What the call answers is answered, if it counts. -/
  answered : ∀ c answer, selected = some c → (host c state).1 = .ok answer →
    (use state).1 = .ok (c.outcome answer)

variable (host : Host ω σ ε) (m : Member)

/-- To meet the demand for a call is to make the call and to report it. -/
theorem meet_call_eq_report (c : HostCall ω) (state : σ) :
    m.meet host (.call c) state
      = (c.report m.ownerName m.name (host c state).1, (host c state).2) := by
  rw [meet_call]
  rcases host c state with ⟨cause | answer, state'⟩ <;> rfl

/-- A use that does not reach the host is declined. -/
theorem callsOnce_of_declined {owner member : String} {use : Use σ ε (Lookup ω)}
    {logged : Use (σ × List (HostCall ω)) ε (Lookup ω)} {state : σ}
    {answer : Except (Failure ε) (Lookup ω)} (hdeclined : isDeclined answer = true)
    (huse : use state = (answer, state)) (hlogged : logged (state, []) = (answer, state, [])) :
    CallsOnce host owner member none use logged state where
  calls := by rw [callsOf, hlogged]; rfl
  logged_eq := by rw [huse, hlogged]; exact ⟨rfl, rfl⟩
  declined_iff := by rw [huse]; exact ⟨fun _ => rfl, fun _ => hdeclined⟩
  unchanged _ := by rw [huse]
  changed := nofun
  raised_iff owner' member' cause := by
    rw [huse]
    refine ⟨fun h => ?_, fun ⟨_, _, c, hc, _⟩ => nomatch hc⟩
    have hanswer : answer = .error (.invocation owner' member' cause) := h
    rw [hanswer] at hdeclined
    cases hdeclined
  answered := nofun

/-- Meeting a demand makes the call that is demanded. -/
theorem callsOnce_meet (d : Demand ω) (state : σ) :
    CallsOnce host m.ownerName m.name d.call? (m.meet host d) (m.meet host.logged d) state := by
  cases d with
  | absent => exact callsOnce_of_declined host rfl rfl rfl
  | immutable => exact callsOnce_of_declined host rfl rfl rfl
  | notApplicable shape => exact callsOnce_of_declined host rfl rfl rfl
  | call c =>
    have hmeet := m.meet_call_eq_report host c state
    have hlogged : m.meet host.logged (.call c) (state, [])
        = (c.report m.ownerName m.name (host c state).1, (host c state).2, [c]) :=
      m.meet_call_eq_report host.logged c (state, [])
    exact {
      calls := by rw [callsOf, hlogged]; rfl
      logged_eq := by rw [hmeet, hlogged]; exact ⟨rfl, rfl⟩
      declined_iff := by rw [hmeet, c.isDeclined_report]; exact ⟨nofun, nofun⟩
      unchanged := nofun
      changed := by
        rintro c' ⟨⟩
        rw [hmeet]
      raised_iff := fun owner' member' cause => by
        rw [hmeet, c.report_eq_invocation_iff]
        simp [Demand.call?]
      answered := by
        rintro c' answer ⟨⟩ hanswer
        rw [hmeet, hanswer]
        rfl }

/-! ### The four uses -/

theorem callsOnce_read (receiver : Option ω) (state : σ) :
    CallsOnce host m.ownerName m.name (m.slot.readDemand receiver).call? (m.read host receiver)
      (m.read host.logged receiver) state := by
  rw [read_eq_meet, read_eq_meet]
  exact m.callsOnce_meet host _ state

theorem callsOnce_write (receiver value : Option ω) (state : σ) :
    CallsOnce host m.ownerName m.name (m.slot.writeDemand receiver value).call?
      (m.write host receiver value) (m.write host.logged receiver value) state := by
  rw [write_eq_meet, write_eq_meet]
  exact m.callsOnce_meet host _ state

/-- After any calls of the member, a call of it goes to the overload that is selected. -/
theorem callsOnce_invoke (env : Environment) {σ' ε' : Type} (earlier : Host ω σ' ε')
    (calls : List (Call ω)) (s : Signature) (receiver : Option ω) (args : List (Option ω))
    (state : σ) :
    CallsOnce host m.ownerName m.name
      (m.slot.callDemand (m.slot.select env.accepts s) (s.display env.types) receiver args).call?
      (m.invoke env host s receiver args (m.memoAfter env earlier calls)).1
      (m.invoke env host.logged s receiver args (m.memoAfter env earlier calls)).1 state := by
  rw [invoke_eq_meet, invoke_eq_meet, (m.records_memoAfter env earlier calls).binding_resolve]
  exact m.callsOnce_meet host _ state

theorem callsOnce_construct (ownerName : String) (constructors : Overloads) (s : Signature)
    (args : List (Option ω)) (state : σ) :
    CallsOnce host ownerName Executable.constructorName (constructors.constructDemand s args).call?
      (construct host ownerName constructors s args)
      (construct host.logged ownerName constructors s args) state := by
  have hmeet : ∀ {τ : Type} (host : Host ω τ ε), construct host ownerName constructors s args
      = meet host ⟨Executable.constructorName, default, ownerName, Slot.empty⟩
          (constructors.constructDemand s args) := by
    intro τ host
    unfold construct Overloads.constructDemand
    cases constructors.find? s <;> rfl
  rw [hmeet, hmeet]
  exact callsOnce_meet host ⟨Executable.constructorName, default, ownerName, Slot.empty⟩ _ state

end Member

end ScriptSurface
