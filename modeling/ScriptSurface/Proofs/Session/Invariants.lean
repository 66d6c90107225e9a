import ScriptSurface.Proofs.Session.Requests

/-!
# Invariants of a session

Many things that hold of a session are only about what it works out: its descriptors, tables and
mappings.  Those are put down by five computations, so to show that such a thing holds of every
session it is enough to look at them: that is what `Session.IsInvariant` asks for, and
`Session.IsInvariant.after` is what it gives.
-/

namespace ScriptSurface.Session

open Descriptor (Key)

variable {α β : Type} {env : Environment} {P : Session → Prop}

/-- The key of a class is the same whatever descriptors there are. -/
theorem fst_describe (types : HostTypes) (c : ClassId) (s : Session) :
    (describe types c s).1 = Key.ofClass types c := by
  have hkey (n : ℕ) : Ensures (fun _ => True) (describeWithin types n c) fun key _ =>
      key = Key.ofClass types c := by
    cases n with
    | zero => exact .pure fun _ _ => rfl
    | succ n =>
      rw [describeWithin]
      refine .bind_get fun s _ => ?_
      split_ifs
      · exact .pure fun _ _ => rfl
      · exact .bind (Q := fun _ _ => True) (fun _ _ => trivial) fun _ =>
          .bind (Q := fun _ _ => True) (fun _ _ => trivial) fun _ _ _ => rfl
  exact hkey _ s trivial

/-! ### Computations that keep something -/

/-- What holds of a session before the computation holds of it afterwards. -/
def Keeps (P : Session → Prop) (m : SessionM α) : Prop := Ensures P m fun _ s => P s

namespace Keeps

theorem pure (a : α) : Keeps P (Pure.pure a : SessionM α) := fun _ hs => hs

theorem bind {m : SessionM α} {f : α → SessionM β} (hm : Keeps P m) (hf : ∀ a, Keeps P (f a)) :
    Keeps P (m >>= f) :=
  Ensures.bind hm hf

theorem bind_get {f : Session → SessionM β} (hf : ∀ s, Keeps P (f s)) : Keeps P (get >>= f) :=
  fun s hs => hf s s hs

theorem mapM {f : α → SessionM β} (hf : ∀ a, Keeps P (f a)) (l : List α) : Keeps P (l.mapM f) := by
  induction l with
  | nil => exact pure []
  | cons a l ih =>
    rw [List.mapM_cons]
    exact (hf a).bind fun b => ih.bind fun bs => pure (b :: bs)

theorem optionMapM {f : α → SessionM β} (hf : ∀ a, Keeps P (f a)) (o : Option α) :
    Keeps P (o.mapM f) := by
  cases o with
  | none => exact pure none
  | some a => exact (hf a).bind fun b => pure (some b)

theorem forM {f : α → SessionM PUnit} (hf : ∀ a, Keeps P (f a)) (l : List α) :
    Keeps P (l.forM f) :=
  Ensures.forM hf l

end Keeps

/-! ### Descriptors and tables -/

/-- The sessions have the same descriptors and tables. -/
structure SameTables (s s' : Session) : Prop where
  /-- They have the same descriptors. -/
  descriptors : s'.descriptors = s.descriptors
  /-- They have the same tables of own members. -/
  ownTables : s'.ownTables = s.ownTables
  /-- They have the same tables of inherited members. -/
  mergedTables : s'.mergedTables = s.mergedTables
  /-- They have the same constructors. -/
  constructorTables : s'.constructorTables = s.constructorTables

/-- What holds of sessions is only about descriptors and tables. -/
def OnlyOfTables (P : Session → Prop) : Prop := ∀ s s', SameTables s s' → P s → P s'

/-- What holds of sessions is not about events, signatures, or what dispatch remembers. -/
def IgnoresNotes (P : Session → Prop) : Prop :=
  ∀ s s', SameTables s s' → s'.mappings = s.mappings → P s → P s'

theorem OnlyOfTables.ignoresNotes (h : OnlyOfTables P) : IgnoresNotes P := fun s s' hsame _ hs =>
  h s s' hsame hs

namespace IgnoresNotes

variable (h : IgnoresNotes P)

include h

theorem keeps {m : SessionM α} (hm : ∀ s, SameTables s (m s).2)
    (hmappings : ∀ s, (m s).2.mappings = s.mappings) : Keeps P m := fun s =>
  h s (m s).2 (hm s) (hmappings s)

theorem keeps_note (e : Event) : Keeps P (note e) :=
  h.keeps (fun _ => ⟨rfl, rfl, rfl, rfl⟩) fun _ => rfl

theorem keeps_forM_intern (es : List Executable) :
    Keeps P (es.forM fun e => do let _ ← intern ⟨e.params⟩) :=
  .forM (fun _ => .bind (h.keeps (fun _ => ⟨rfl, rfl, rfl, rfl⟩) fun _ => rfl) fun _ => .pure _) es

theorem keeps_noteTooDeep (limit : ℕ) (parts : List TypeExpr) : Keeps P (noteTooDeep limit parts) :=
  .forM (fun _ => h.keeps_note _) parts

theorem keeps_noteSearch (m : Member) (signature : Signature) (r : Resolution) :
    Keeps P (noteSearch m signature r) := by
  unfold noteSearch
  split
  · exact h.keeps_note _
  · exact .pure _

theorem keeps_resolve (env : Environment) (path : MemberPath) (m : Member) (signature : Signature) :
    Keeps P (resolve env path m signature) :=
  .bind (h.keeps (fun _ => ⟨rfl, rfl, rfl, rfl⟩) fun _ => rfl) fun r =>
    .bind (h.keeps_noteSearch m signature r) fun _ => .pure _

theorem keeps_choose (env : Environment) (path : MemberPath) (m : Member) (signature : Signature) :
    Keeps P (choose env path m signature) := by
  refine .bind (h.keeps (fun _ => ⟨rfl, rfl, rfl, rfl⟩) fun _ => rfl) fun choice =>
    .bind ?_ fun _ => .pure _
  cases choice with
  | none => exact .pure _
  | some r => exact h.keeps_noteSearch m signature r

/-! ### Putting down descriptors and tables -/

theorem keeps_describeWithin {types : HostTypes}
    (hput : ∀ s key d, P s → P { s with descriptors := s.descriptors.putNew key d }) (n : ℕ)
    (c : ClassId) : Keeps P (describeWithin types n c) := by
  induction n generalizing c with
  | zero => exact .pure _
  | succ n ih =>
    rw [describeWithin]
    refine .bind_get fun s => ?_
    split_ifs
    · exact .pure _
    · refine .bind (.optionMapM ih _) fun parent => .bind (.mapM ih _) fun interfaces => ?_
      exact .bind (h.keeps_note _) fun _ => .bind (fun s hs => hput s _ _ hs) fun _ => .pure _

theorem keeps_ownMembers
    (hput : ∀ s key, P s →
      P { s with ownTables := s.ownTables.put key (env.ownMembers key.cls) }) (key : Key) :
    Keeps P (ownMembers env key) := by
  unfold ownMembers
  refine .bind_get fun s => ?_
  split
  · exact .pure _
  · dsimp only
    split_ifs
    · exact .bind (fun s hs => hput s key hs) fun _ => .pure _
    · refine .bind (h.keeps_forM_intern _) fun _ => .bind_get fun s => .bind (h.keeps_note _) ?_
      exact fun _ => .bind (fun s hs => hput s key hs) fun _ => .pure _

theorem keeps_members (hown : ∀ key, Keeps P (ownMembers env key))
    (hput : ∀ s key t, P s → P { s with mergedTables := s.mergedTables.put key t }) (key : Key) :
    Keeps P (members env key) := by
  unfold members
  refine .bind_get fun s => ?_
  split
  · exact .pure _
  · refine .bind_get fun s => .bind (.mapM hown _) fun own => .bind_get fun s => ?_
    exact .bind (h.keeps_note _) fun _ => .bind (fun s hs => hput s key _ hs) fun _ => .pure _

theorem keeps_constructors
    (hput : ∀ s key, P s →
      P { s with constructorTables := s.constructorTables.put key (env.constructors key.cls) })
    (key : Key) : Keeps P (constructors env key) := by
  unfold constructors
  refine .bind_get fun s => ?_
  split
  · exact .pure _
  · refine .bind (h.keeps_forM_intern _) fun _ => .bind_get fun s => .bind (h.keeps_note _) ?_
    exact fun _ => .bind (fun s hs => hput s key hs) fun _ => .pure _

end IgnoresNotes

theorem OnlyOfTables.keeps_mappingWithin (h : OnlyOfTables P) (types : HostTypes) (limit n : ℕ)
    (c : ClassId) : Keeps P (mappingWithin types limit n c) := by
  induction n generalizing c with
  | zero => exact .pure _
  | succ n ih =>
    rw [mappingWithin]
    split_ifs
    · exact .pure _
    · refine .bind_get fun s => ?_
      split
      · exact .pure _
      · refine .bind (.mapM (fun p => .bind (ih p) fun m => ?_) _) fun inherited => ?_
        · exact .bind (h.ignoresNotes.keeps_noteTooDeep _ _) fun _ => .pure _
        · refine .bind (h.ignoresNotes.keeps_note _) fun _ => ?_
          exact .bind (fun s hs => h s _ ⟨rfl, rfl, rfl, rfl⟩ hs) fun _ => .pure _

/-! ### Invariants -/

/-- What is only about what a session works out is kept by the computations that put it down. -/
structure IsInvariant (env : Environment) (P : Session → Prop) : Prop where
  /-- It is only about descriptors, tables and mappings. -/
  ignoresNotes : IgnoresNotes P
  /-- It is kept where a descriptor is created. -/
  describe : ∀ c, Keeps P (describe env.types c)
  /-- It is kept where own members are worked out. -/
  ownMembers : ∀ key, Keeps P (ownMembers env key)
  /-- It is kept where inherited members are worked out. -/
  members : ∀ key, Keeps P (members env key)
  /-- It is kept where constructors are worked out. -/
  constructors : ∀ key, Keeps P (constructors env key)
  /-- It is kept where mappings are composed. -/
  mapping : ∀ c, Keeps P (mapping env.types env.limit c)

namespace IsInvariant

variable (h : IsInvariant env P)

include h

theorem keeps_table (key : Key) (scope : Scope) : Keeps P (table env key scope) := by
  cases scope with
  | own => exact h.ownMembers key
  | merged => exact h.members key

theorem keeps_tableOf (scope : Scope) (c : ClassId) : Keeps P (tableOf env scope c) :=
  .bind (h.describe c) fun key => h.keeps_table key scope

theorem keeps_memberOf? (scope : Scope) (c : ClassId) (name : String) :
    Keeps P (memberOf? env scope c name) :=
  .bind (h.describe c) fun key =>
    .bind (.bind (h.keeps_table key scope) fun _ => .bind_get fun _ => .pure _) fun _ => .pure _

/-- Every request keeps an invariant. -/
theorem keeps_perform (r : Request) : Keeps P (r.perform env) := by
  have hnotes := h.ignoresNotes
  cases r with
  | describe value =>
    cases value with
    | none => exact .bind (.pure _) fun _ => .pure _
    | some c => exact .bind (h.describe c) fun _ => .pure _
  | table scope c => exact .bind (h.keeps_tableOf scope c) fun _ => .pure _
  | member scope c name => exact .bind (h.keeps_memberOf? scope c name) fun _ => .pure _
  | constructors c =>
    exact .bind (h.describe c) fun key => .bind (h.constructors key) fun _ => .pure _
  | resolve scope c name signature =>
    refine .bind (h.keeps_memberOf? scope c name) fun found => ?_
    cases found with
    | none => exact .pure _
    | some found => exact .bind (hnotes.keeps_resolve env _ _ _) fun _ => .pure _
  | choose scope c name signature =>
    refine .bind (h.keeps_memberOf? scope c name) fun found => ?_
    cases found with
    | none => exact .pure _
    | some found => exact .bind (hnotes.keeps_choose env _ _ _) fun _ => .pure _
  | mapping c => exact .bind (h.mapping c) fun _ => .pure _
  | inTermsOf c t =>
    refine .bind (.bind (h.mapping c) fun m => ?_) fun _ => .pure _
    exact .bind (hnotes.keeps_noteTooDeep _ _) fun _ => .pure _
  | allInTermsOf c ts =>
    refine .bind (.bind (h.mapping c) fun m => ?_) fun _ => .pure _
    exact .bind (hnotes.keeps_noteTooDeep _ _) fun _ => .pure _
  | takeEvents =>
    exact .bind (hnotes.keeps (fun _ => ⟨rfl, rfl, rfl, rfl⟩) fun _ => rfl) fun _ => .pure _

/-- An invariant of a new session holds after any requests. -/
theorem after (hstart : P (start env.types)) (requests : List Request) :
    P (after env requests) := by
  induction requests using List.reverseRecOn with
  | nil => exact hstart
  | append_singleton requests r ih =>
    rw [Session.after, List.foldl_append]
    exact h.keeps_perform r _ ih

end IsInvariant

end ScriptSurface.Session
