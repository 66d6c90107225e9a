import Mathlib.Data.List.Basic

/-!
# What a computation ensures

`Ensures P m Q` says that a computation started in a state of which `P` holds ends with an answer
and in a state of which `Q` holds.  The registry and the sessions are such computations.
-/

namespace ScriptSurface

/-- What comes second starts in the state where what comes first ended. -/
theorem bind_state {σ α β : Type} (x : StateM σ α) (f : α → StateM σ β) (s : σ) :
    (x >>= f) s = f (x s).1 (x s).2 := rfl

/-- To look at a state does not change it. -/
theorem get_state {σ : Type} (s : σ) : (get : StateM σ σ) s = (s, s) := rfl

/-- Computations that do the same to a state still do when the same is done after them. -/
theorem bind_congr_state {σ α β : Type} {x y : StateM σ α} {s : σ} (h : x s = y s)
    (f : α → StateM σ β) : (x >>= f) s = (y >>= f) s := by
  show f (x s).1 (x s).2 = f (y s).1 (y s).2
  rw [h]

/-- Started where `P` holds, the computation ends where `Q` holds. -/
def Ensures {σ α : Type} (P : σ → Prop) (m : StateM σ α) (Q : α → σ → Prop) : Prop :=
  ∀ s, P s → Q (m s).1 (m s).2

namespace Ensures

variable {σ α β : Type} {P P' : σ → Prop} {Q Q' : α → σ → Prop} {R : β → σ → Prop}
  {m : StateM σ α} {f : α → StateM σ β}

theorem pure {a : α} (h : ∀ s, P s → Q a s) : Ensures P (Pure.pure a) Q := h

theorem bind (hm : Ensures P m Q) (hf : ∀ a, Ensures (Q a) (f a) R) : Ensures P (m >>= f) R :=
  fun s hs => hf _ _ (hm s hs)

/-- A computation that first looks at the state. -/
theorem bind_get {f : σ → StateM σ β} (h : ∀ s, P s → Ensures (fun s' => s' = s) (f s) R) :
    Ensures P (MonadState.get >>= f) R :=
  fun s hs => h s hs s rfl

theorem of_state {s : σ} (h : Ensures P m Q) (hs : P s) : Ensures (fun s' => s' = s) m Q :=
  fun s' heq => h s' (heq ▸ hs)

theorem modify {f : σ → σ} {Q : PUnit → σ → Prop} (h : ∀ s, P s → Q ⟨⟩ (f s)) :
    Ensures P (modify f) Q := h

theorem mono (h : Ensures P m Q) (hP : ∀ s, P' s → P s) (hQ : ∀ a s, Q a s → Q' a s) :
    Ensures P' m Q' :=
  fun s hs => hQ _ _ (h s (hP s hs))

/-- What does not depend on the state may be assumed outright. -/
theorem of_and {p : Prop} (h : p → Ensures P m Q) : Ensures (fun s => p ∧ P s) m Q :=
  fun s hs => h hs.1 s hs.2

/-- A computation run on each entry of a list, where all runs keep `P`. -/
theorem mapM {T : α → β → Prop} (h : ∀ a, Ensures P (f a) fun b s => T a b ∧ P s) (l : List α) :
    Ensures P (l.mapM f) fun bs s => List.Forall₂ T l bs ∧ P s := by
  induction l with
  | nil => exact pure fun s hs => ⟨.nil, hs⟩
  | cons a l ih =>
    rw [List.mapM_cons]
    refine bind (h a) fun b => of_and fun hb => ?_
    exact bind ih fun bs => of_and fun hbs => pure fun s hs => ⟨.cons hb hbs, hs⟩

/-- A computation that answers a function of the entry, run on each entry of a list. -/
theorem mapM_eq {g : α → β} {l : List α}
    (h : ∀ a ∈ l, Ensures P (f a) fun b s => b = g a ∧ P s) :
    Ensures P (l.mapM f) fun bs s => bs = l.map g ∧ P s := by
  induction l with
  | nil => exact pure fun s hs => ⟨rfl, hs⟩
  | cons a l ih =>
    rw [List.mapM_cons]
    refine bind (h a List.mem_cons_self) fun b => of_and fun hb => ?_
    refine bind (ih fun a ha => h a (List.mem_cons_of_mem _ ha)) fun bs => of_and fun hbs => ?_
    exact pure fun s hs => ⟨by rw [hb, hbs, List.map_cons], hs⟩

/-- A computation that answers a function of the entry, run on the entry there may be. -/
theorem optionMapM_eq {g : α → β} {o : Option α}
    (h : ∀ a ∈ o, Ensures P (f a) fun b s => b = g a ∧ P s) :
    Ensures P (o.mapM f) fun b s => b = o.map g ∧ P s := by
  cases o with
  | none => exact pure fun s hs => ⟨rfl, hs⟩
  | some a =>
    show Ensures P (f a >>= fun b => Pure.pure (some b)) _
    refine bind (h a rfl) fun b => of_and fun hb => ?_
    exact pure fun s hs => ⟨by rw [hb, Option.map_some], hs⟩

/-- A computation run on each entry of a list, where what holds goes by the entries it was run on so
far. -/
theorem mapM_done {P : List α → σ → Prop} {l : List α} (done : List α)
    (h : ∀ done, ∀ a ∈ l, Ensures (P done) (f a) fun _ s => P (done ++ [a]) s) :
    Ensures (P done) (l.mapM f) fun _ s => P (done ++ l) s := by
  induction l generalizing done with
  | nil =>
    rw [List.append_nil]
    exact pure fun s hs => hs
  | cons a l ih =>
    rw [List.mapM_cons]
    refine bind (h done a List.mem_cons_self) fun b => ?_
    have hl := ih (done ++ [a]) fun done a ha => h done a (List.mem_cons_of_mem _ ha)
    refine bind hl fun bs => ?_
    rw [List.append_assoc, List.singleton_append]
    exact pure fun s hs => hs

theorem forM {f : α → StateM σ PUnit} (h : ∀ a, Ensures P (f a) fun _ s => P s) (l : List α) :
    Ensures P (l.forM f) fun _ s => P s := by
  induction l with
  | nil => exact pure fun _ hs => hs
  | cons a l ih => exact bind (h a) fun _ => ih

end Ensures

end ScriptSurface
