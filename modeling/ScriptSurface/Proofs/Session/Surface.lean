import ScriptSurface.Proofs.Member.Access
import ScriptSurface.Proofs.Session.Members

/-!
# The names a session advertises

A session tells scripts which names of a class they can use, and hands out the members behind them.
The member of a name is the slot that the table has under the name (`Session.slot_memberOf?`), so
the names are told by what comes of using the members (`Session.usableNames_offers`).  In `veiled`,
class 17 has a property `size` that can only be read, and a name `getSize` that is of no use.
-/

namespace ScriptSurface.Session

variable {ω σ ε : Type}

/-- The member of a name is what the table has under the name. -/
theorem slot_memberOf? (env : Environment) (requests : List Request) (scope : Scope) (c : ClassId)
    (n : String) :
    (answer env requests (memberOf? env scope c n)).map (fun found => found.2.slot)
      = (answer env requests (tableOf env scope c)).find? n := by
  -- the member is put together from what is found in the very table that is answered
  show ((((answer env requests (tableOf env scope c)).find? n).map _).map _).map _ = _
  rw [Option.map_map, Option.map_map]
  exact Option.map_id'

/-- **Members do what their table advertises.**  Whatever was asked before and whatever the host
does, the outcomes of using a member agree with what its slot offers.  So the usable names of a
class, which are in strictly ascending order, are those of its members of which not all uses come to
nothing. -/
theorem usableNames_offers (env : Environment) (requests : List Request) (scope : Scope)
    (c : ClassId) (host : Host ω σ ε) (receiver value : Option ω) (signature : Signature)
    (args : List (Option ω)) (memo : Memo) (state : σ) :
    (answer env requests (tableOf env scope c)).usableNames.Pairwise
        (fun a b => Order.texts a b = .lt) ∧
      ∀ n,
        (n ∈ (answer env requests (tableOf env scope c)).usableNames →
          ∃ found, answer env requests (memberOf? env scope c n) = some found) ∧
        ∀ path m, answer env requests (memberOf? env scope c n) = some (path, m) →
          m.Offers env host receiver value signature args memo state ∧
          (n ∈ (answer env requests (tableOf env scope c)).usableNames ↔
            ¬((m.read host receiver state).1 = .ok .absent ∧
              (m.write host receiver value state).1 = .ok .absent ∧
              ((m.invoke env host signature receiver args memo).1 state).1 = .ok .absent)) := by
  refine ⟨MemberTable.pairwise_usableNames _, fun n => ⟨fun hn => ?_, fun path m hm => ?_⟩⟩
  · obtain ⟨slot, hslot, -⟩ := (MemberTable.mem_usableNames_iff _ n).1 hn
    rw [← slot_memberOf?, Option.map_eq_some_iff] at hslot
    obtain ⟨found, hfound, -⟩ := hslot
    exact ⟨found, hfound⟩
  · have hoffers := m.offers env host receiver value signature args memo state
    have hslot : (answer env requests (tableOf env scope c)).find? n = some m.slot := by
      rw [← slot_memberOf?, hm, Option.map_some]
    refine ⟨hoffers, ?_⟩
    rw [← hoffers.isUsable_iff, MemberTable.mem_usableNames_iff, hslot]
    simp

/-- In `veiled`, `size` is advertised because it can be read, and `getSize` is not because all uses
of it come to nothing. -/
theorem usableNames_offers_veiled :
    ∃ sizePath size getSizePath getSize,
      answer veiledEnvironment [.table .own 16] (memberOf? veiledEnvironment .merged 17 "size")
          = some (sizePath, size) ∧
        answer veiledEnvironment [.table .own 16]
            (memberOf? veiledEnvironment .merged 17 "getSize") = some (getSizePath, getSize) ∧
        "size" ∈ (answer veiledEnvironment [.table .own 16]
          (tableOf veiledEnvironment .merged 17)).usableNames ∧
        (∃ f, (size.write (fun _ => return none : Host Unit Unit Unit) none none ()).1 = .error f ∧
          f.isImmutableWrite = true) ∧
        "getSize" ∉ (answer veiledEnvironment [.table .own 16]
          (tableOf veiledEnvironment .merged 17)).usableNames := by
  obtain ⟨-, hnames⟩ := usableNames_offers veiledEnvironment [.table .own 16] .merged 17
    (fun _ => return none : Host Unit Unit Unit) none none ⟨[]⟩ [] ∅ ()
  have hfound : ∀ n slot, (answer veiledEnvironment [.table .own 16]
        (tableOf veiledEnvironment .merged 17)).find? n = some slot →
      ∃ path m, answer veiledEnvironment [.table .own 16]
        (memberOf? veiledEnvironment .merged 17 n) = some (path, m) ∧ m.slot = slot := by
    intro n slot hslot
    rw [← slot_memberOf?, Option.map_eq_some_iff] at hslot
    obtain ⟨⟨path, m⟩, hm, hslot⟩ := hslot
    exact ⟨path, m, hm, hslot⟩
  rw [answer_veiled] at hfound hnames ⊢
  obtain ⟨sizePath, size, hsize, hsizeSlot⟩ := hfound "size" _ rfl
  obtain ⟨getSizePath, getSize, hgetSize, hgetSizeSlot⟩ := hfound "getSize" _ rfl
  obtain ⟨hsizeOffers, hsizeName⟩ := (hnames "size").2 sizePath size hsize
  obtain ⟨hgetSizeOffers, hgetSizeName⟩ := (hnames "getSize").2 getSizePath getSize hgetSize
  refine ⟨sizePath, size, getSizePath, getSize, hsize, hgetSize, ?_, ?_, ?_⟩
  · rw [hsizeName, ← hsizeOffers.isUsable_iff, hsizeSlot]
    rfl
  · rw [hsizeOffers.write_immutable, hsizeSlot]
    exact ⟨rfl, rfl⟩
  · rw [hgetSizeName, ← hgetSizeOffers.isUsable_iff, hgetSizeSlot]
    exact nofun

end ScriptSurface.Session
