import Mathlib.Data.Sum.Basic
import ScriptSurface.Proofs.TypeExpr.Erasure
import ScriptSurface.Proofs.TypeExpr.Substitution
import ScriptSurface.TypeExpr.Spelling

/-!
# Types are told apart by their descriptions

The spelling of a type has three parts: the class or variable it begins with, then the type
arguments in angle brackets if there are any, then a pair of brackets for each array around it.
The first part ends at the first character that belongs to no class or variable (a mark), the
second at its closing bracket, and the third before what may follow a type within a longer text, a
comma or a closing angle bracket.  So a type and what follows it can be told from the text they
make together (`TypeExpr.readsBack`).

The brackets of an array come after its component, where reading does not begin.  The induction
therefore takes all of them off a type at once and goes on to its arguments
(`TypeExpr.unbracketed_induct`).

Of the spellings of classes and variables this asks that they differ, have no mark in them and are
not empty (`TypeExpr.Legible`).  Ids are such spellings (`TypeExpr.legible_ids`), and so the
description of a type says all there is to know about it: `TypeExpr.description_eq_iff`.
-/

namespace ScriptSurface

/-! ### Words -/

namespace Text

/-- Whether a text is empty or starts with one of the characters. -/
def StartsIn (stops rest : List Char) : Prop := ∀ c ∈ rest.head?, c ∈ stops

variable {stops stops' word word' rest rest' : List Char} {c : Char}

theorem startsIn_nil (stops : List Char) : StartsIn stops [] := nofun

theorem startsIn_cons : StartsIn stops (c :: rest) ↔ c ∈ stops := by
  simp [StartsIn]

theorem StartsIn.mono (h : StartsIn stops rest) (hsub : stops ⊆ stops') : StartsIn stops' rest :=
  fun c hc => hsub (h c hc)

theorem StartsIn.ne_cons (h : StartsIn stops rest) (hc : c ∉ stops) : rest ≠ c :: rest' := by
  rintro rfl
  exact hc (startsIn_cons.1 h)

theorem word_append_ne_cons (hne : word ≠ []) (hword : ∀ c ∈ word, c ∉ stops) (hc : c ∈ stops) :
    word ++ rest ≠ c :: rest' := by
  obtain ⟨x, word, rfl⟩ := List.exists_cons_of_ne_nil hne
  intro h
  exact hword c ((List.cons.inj h).1 ▸ List.mem_cons_self) hc

theorem takeWhile_word (hword : ∀ c ∈ word, c ∉ stops) (hrest : StartsIn stops rest) :
    (word ++ rest).takeWhile (· ∉ stops) = word := by
  have hstop : rest.takeWhile (· ∉ stops) = [] := by
    cases rest with
    | nil => rfl
    | cons c rest => exact List.takeWhile_cons_of_neg (by simpa using startsIn_cons.1 hrest)
  rw [List.takeWhile_append_of_pos (by simpa using hword), hstop, List.append_nil]

/-- A word goes up to the first character that can be in no word. -/
theorem word_append_inj (hword : ∀ c ∈ word, c ∉ stops) (hword' : ∀ c ∈ word', c ∉ stops)
    (hrest : StartsIn stops rest) (hrest' : StartsIn stops rest')
    (h : word ++ rest = word' ++ rest') : word = word' ∧ rest = rest' := by
  obtain rfl : word = word' := by
    rw [← takeWhile_word hword hrest, h, takeWhile_word hword' hrest']
  exact ⟨rfl, List.append_cancel_left h⟩

end Text

open Text

/-! ### Ids -/

theorem toDigits_injective : Function.Injective (Nat.toDigits 10) := fun m n h => by
  rw [← Nat.ofDigitChars_ten_toDigits (n := m), h, Nat.ofDigitChars_ten_toDigits]

namespace ClassId

theorem isDigit_or_eq_of_mem_spelling {c : ClassId} {x : Char} (hx : x ∈ c.spelling) :
    x.isDigit = true ∨ x = '#' := by
  rcases List.mem_cons.1 hx with rfl | hx
  · exact .inr rfl
  · exact .inl (Nat.isDigit_of_mem_toDigits (by decide) (by decide) hx)

theorem colon_not_mem_spelling (c : ClassId) : ':' ∉ c.spelling := fun h =>
  absurd (isDigit_or_eq_of_mem_spelling h) (by decide)

theorem spelling_injective : Function.Injective spelling := fun c d h => by
  have hindex : c.index.toNat = d.index.toNat := toDigits_injective (List.cons.inj h).2
  exact congrArg mk (UInt32.toNat_inj.1 hindex)

end ClassId

namespace TypeVar

theorem isDigit_or_mem_of_mem_spelling {v : TypeVar} {x : Char} (hx : x ∈ v.spelling) :
    x.isDigit = true ∨ x ∈ ['#', ':', 'T'] := by
  simp only [spelling, List.mem_append, List.mem_cons] at hx
  rcases hx with hx | rfl | rfl | hx
  · exact (ClassId.isDigit_or_eq_of_mem_spelling hx).imp_right (by rintro rfl; decide)
  · exact .inr (by decide)
  · exact .inr (by decide)
  · exact .inl (Nat.isDigit_of_mem_toDigits (by decide) (by decide) hx)

/-- The owner of a variable is spelled up to the colon. -/
theorem spelling_injective : Function.Injective spelling := by
  rintro ⟨c, i⟩ ⟨d, j⟩ h
  have hcolon (c : ClassId) : ∀ x ∈ c.spelling, x ∉ [':'] := fun x hx hx' =>
    c.colon_not_mem_spelling (List.mem_singleton.1 hx' ▸ hx)
  obtain ⟨howner, hposition⟩ := word_append_inj (hcolon c) (hcolon d)
    (startsIn_cons.2 (by decide)) (startsIn_cons.2 (by decide)) h
  have hindex : i.toNat = j.toNat :=
    toDigits_injective (List.cons.inj (List.cons.inj hposition).2).2
  rw [ClassId.spelling_injective howner, UInt16.toNat_inj.1 hindex]

end TypeVar

namespace TypeExpr

/-! ### Legible spellings -/

/-- The characters in the spelling of a type that belong to no class or variable. -/
def marks : List Char := ['?', '<', '>', '[', ']', ',', ' ']

/-- Spellings of classes and variables that keep them apart and can be told from the rest of the
spelling of a type. -/
structure Legible (ofClass : ClassId → List Char) (ofVar : TypeVar → List Char) : Prop where
  /-- Different classes and variables have different spellings. -/
  injective : Function.Injective (Sum.elim ofClass ofVar)
  /-- No spelling is empty. -/
  ne_nil : ∀ x, Sum.elim ofClass ofVar x ≠ []
  /-- No spelling has a mark in it. -/
  not_mem_marks : ∀ x, ∀ c ∈ Sum.elim ofClass ofVar x, c ∉ marks

theorem not_mem_marks_of_isDigit_or_mem {c : Char} (h : c.isDigit = true ∨ c ∈ ['#', ':', 'T']) :
    c ∉ marks := by
  have hmarks : (marks.all fun c => !c.isDigit && c ∉ ['#', ':', 'T']) = true := by decide
  intro hmark
  have hnone := List.all_eq_true.1 hmarks c hmark
  rw [Bool.and_eq_true, Bool.not_eq_true', decide_eq_true_eq] at hnone
  rcases h with hdigit | hsign
  · exact Bool.false_ne_true (hnone.1.symm.trans hdigit)
  · exact hnone.2 hsign

theorem legible_ids : Legible ClassId.spelling TypeVar.spelling where
  injective := by
    refine ClassId.spelling_injective.sumElim TypeVar.spelling_injective fun c v h => ?_
    -- only the id of a variable has a colon in it
    exact c.colon_not_mem_spelling (by rw [h]; simp [TypeVar.spelling])
  ne_nil x := by
    cases x <;> exact List.cons_ne_nil _ _
  not_mem_marks x c hc := by
    refine not_mem_marks_of_isDigit_or_mem ?_
    cases x with
    | inl d => exact (ClassId.isDigit_or_eq_of_mem_spelling hc).imp_right (by rintro rfl; decide)
    | inr v => exact TypeVar.isDigit_or_mem_of_mem_spelling hc

variable {ofClass : ClassId → List Char} {ofVar : TypeVar → List Char} {t u : TypeExpr}
  {rest rest' : List Char}

/-! ### Array brackets -/

/-- The type without its array brackets. -/
def unbracketed : TypeExpr → TypeExpr
  | array t _ => unbracketed t
  | t => t

/-- So many pairs of array brackets. -/
def pairs (n : ℕ) : List Char := (List.replicate n ['[', ']']).flatten

theorem pairs_succ (n : ℕ) : pairs (n + 1) = '[' :: ']' :: pairs n := by
  rw [pairs, List.replicate_succ, List.flatten_cons]
  rfl

theorem pairs_succ' (n : ℕ) : pairs (n + 1) = pairs n ++ ['[', ']'] := by
  rw [pairs, List.replicate_succ', List.flatten_concat]
  rfl

theorem brackets_unbracketed (t : TypeExpr) : t.unbracketed.brackets = 0 := by
  induction t using induct with
  | array t s ih => exact ih
  | _ => rfl

theorem spell_eq_append_pairs (t : TypeExpr) :
    t.spell ofClass ofVar = t.unbracketed.spell ofClass ofVar ++ pairs t.brackets := by
  induction t using induct with
  | array t s ih =>
    rw [spell, ih, List.append_assoc, brackets, pairs_succ']
    rfl
  | _ => exact (List.append_nil _).symm

theorem bare_eq_of_unbracketed (hbrackets : t.brackets = u.brackets)
    (h : t.unbracketed.bare = u.unbracketed.bare) : t.bare = u.bare := by
  induction t using induct generalizing u with
  | array t s ih =>
    cases u with
    | array u s' => rw [bare, bare, ih (Nat.succ_injective hbrackets) h]
    | _ => exact absurd hbrackets (Nat.succ_ne_zero _)
  | _ =>
    cases u with
    | array u s' => exact absurd hbrackets (Nat.succ_ne_zero _).symm
    | _ => exact h

/-- Induction on types; what holds of the arguments behind the array brackets holds of the type. -/
@[elab_as_elim]
theorem unbracketed_induct {P : TypeExpr → Prop}
    (step : ∀ t, (∀ w ∈ t.unbracketed.args, P w) → P t) (t : TypeExpr) : P t := by
  -- the arguments stay as they are when a bracket is taken off
  suffices hargs : ∀ t : TypeExpr, ∀ w ∈ t.unbracketed.args, P w from step t (hargs t)
  intro t
  induction t using induct with
  | array t s ih => exact ih
  | applied raw ts s ih => exact fun w hw => step w (ih w hw)
  | _ => exact nofun

/-- What may follow a type within a longer text. -/
def Ends (rest : List Char) : Prop := StartsIn [',', '>'] rest

theorem pairs_append_inj {m n : ℕ} (hrest : Ends rest) (hrest' : Ends rest')
    (h : pairs m ++ rest = pairs n ++ rest') : m = n ∧ rest = rest' := by
  induction m generalizing n with
  | zero =>
    cases n with
    | zero => exact ⟨rfl, h⟩
    | succ n =>
      rw [pairs_succ] at h
      exact absurd h (hrest.ne_cons (by decide))
  | succ m ih =>
    rw [pairs_succ] at h
    cases n with
    | zero => exact absurd h.symm (hrest'.ne_cons (by decide))
    | succ n =>
      rw [pairs_succ] at h
      obtain ⟨rfl, hrests⟩ := ih (List.cons.inj (List.cons.inj h).2).2
      exact ⟨rfl, hrests⟩

theorem startsIn_pairs_append (n : ℕ) (hrest : Ends rest) :
    StartsIn ['[', ',', '>'] (pairs n ++ rest) := by
  cases n with
  | zero => exact hrest.mono (List.subset_cons_self _ _)
  | succ n =>
    rw [pairs_succ]
    exact startsIn_cons.2 (by decide)

/-! ### Arguments -/

/-- Whether a type and what follows it can be told from the text they make together. -/
def ReadsBack (ofClass : ClassId → List Char) (ofVar : TypeVar → List Char) (t : TypeExpr) : Prop :=
  ∀ ⦃u : TypeExpr⦄ ⦃rest rest' : List Char⦄, Ends rest → Ends rest' →
    t.spell ofClass ofVar ++ rest = u.spell ofClass ofVar ++ rest' → t.bare = u.bare ∧ rest = rest'

/-- The spellings of types with a comma before each. -/
def spellMore (ofClass : ClassId → List Char) (ofVar : TypeVar → List Char)
    (ts : List TypeExpr) : List Char :=
  ts.flatMap fun t => ',' :: ' ' :: t.spell ofClass ofVar

theorem spellMore_cons (t : TypeExpr) (ts : List TypeExpr) :
    spellMore ofClass ofVar (t :: ts)
      = ',' :: ' ' :: (t.spell ofClass ofVar ++ spellMore ofClass ofVar ts) :=
  List.flatMap_cons

theorem spellAll_cons (t : TypeExpr) (ts : List TypeExpr) :
    spellAll ofClass ofVar (t :: ts) = t.spell ofClass ofVar ++ spellMore ofClass ofVar ts := by
  induction ts generalizing t with
  | nil => exact (List.append_nil _).symm
  | cons u ts ih => rw [spellAll, ih, spellMore_cons]

theorem ends_spellMore_append (ts : List TypeExpr) (rest : List Char) :
    Ends (spellMore ofClass ofVar ts ++ '>' :: rest) := by
  cases ts with
  | nil => exact startsIn_cons.2 (by decide)
  | cons t ts => exact startsIn_cons.2 (by decide)

theorem spellMore_append_inj {ts us : List TypeExpr} (hts : ∀ w ∈ ts, ReadsBack ofClass ofVar w)
    (h : spellMore ofClass ofVar ts ++ '>' :: rest = spellMore ofClass ofVar us ++ '>' :: rest') :
    ts.map bare = us.map bare ∧ rest = rest' := by
  induction ts generalizing us with
  | nil =>
    cases us with
    | nil => exact ⟨rfl, (List.cons.inj h).2⟩
    | cons u us => exact absurd (List.cons.inj h).1 (by decide)
  | cons t ts ih =>
    cases us with
    | nil => exact absurd (List.cons.inj h).1 (by decide)
    | cons u us =>
      obtain ⟨ht, hts⟩ := List.forall_mem_cons.1 hts
      simp only [spellMore_cons, List.cons_append, List.append_assoc, List.cons.injEq, true_and]
        at h
      obtain ⟨hbare, hmore⟩ := ht (ends_spellMore_append ts rest) (ends_spellMore_append us rest') h
      obtain ⟨hbares, hrests⟩ := ih hts hmore
      exact ⟨by rw [List.map_cons, List.map_cons, hbare, hbares], hrests⟩

/-- No spelling starts with the bracket that closes the arguments. -/
theorem spell_append_ne_cons (hl : Legible ofClass ofVar) (t : TypeExpr) :
    t.spell ofClass ofVar ++ rest ≠ '>' :: rest' := by
  have hword (x : ClassId ⊕ TypeVar) (rest : List Char) :
      Sum.elim ofClass ofVar x ++ rest ≠ '>' :: rest' :=
    word_append_ne_cons (hl.ne_nil x) (hl.not_mem_marks x) (by decide)
  induction t using induct generalizing rest with
  | unknown => exact fun h => absurd (List.cons.inj h).1 (by decide)
  | plain c s => exact hword (.inl c) rest
  | array t s ih =>
    rw [spell, List.append_assoc]
    exact ih
  | applied raw ts s ih =>
    rw [spell, List.append_assoc, List.append_assoc]
    exact hword (.inl raw) _
  | var v s => exact hword (.inr v) rest

theorem spellAll_append_inj (hl : Legible ofClass ofVar) {ts us : List TypeExpr}
    (hts : ∀ w ∈ ts, ReadsBack ofClass ofVar w)
    (h : spellAll ofClass ofVar ts ++ '>' :: rest = spellAll ofClass ofVar us ++ '>' :: rest') :
    ts.map bare = us.map bare ∧ rest = rest' := by
  cases ts with
  | nil =>
    cases us with
    | nil => exact ⟨rfl, (List.cons.inj h).2⟩
    | cons u us =>
      rw [spellAll_cons, List.append_assoc] at h
      exact absurd h.symm (spell_append_ne_cons hl u)
  | cons t ts =>
    rw [spellAll_cons, List.append_assoc] at h
    cases us with
    | nil => exact absurd h (spell_append_ne_cons hl t)
    | cons u us =>
      rw [spellAll_cons, List.append_assoc] at h
      -- with a comma before the first of them, too
      refine spellMore_append_inj hts ?_
      simp only [spellMore_cons, List.cons_append, List.append_assoc, h]

/-! ### Types -/

/-- The class or variable a type begins with. -/
def name? : TypeExpr → Option (ClassId ⊕ TypeVar)
  | plain c _ => some (.inl c)
  | applied raw _ _ => some (.inl raw)
  | var v _ => some (.inr v)
  | _ => none

/-- How the class or variable is spelled that a type begins with. -/
def word (ofClass : ClassId → List Char) (ofVar : TypeVar → List Char) (t : TypeExpr) : List Char :=
  t.name?.elim [] (Sum.elim ofClass ofVar)

/-- What comes after the class or variable a type begins with. -/
def afterWord (ofClass : ClassId → List Char) (ofVar : TypeVar → List Char) : TypeExpr → List Char
  | unknown => ['?']
  | applied _ ts _ => '<' :: spellAll ofClass ofVar ts ++ ['>']
  | _ => []

theorem spell_eq_word_append (h : t.brackets = 0) :
    t.spell ofClass ofVar = t.word ofClass ofVar ++ t.afterWord ofClass ofVar := by
  cases t with
  | array t s => exact absurd h (Nat.succ_ne_zero _)
  | unknown => rfl
  | applied raw ts s => exact List.append_assoc _ _ _
  | _ => exact (List.append_nil _).symm

theorem not_mem_marks_of_mem_word (hl : Legible ofClass ofVar) (t : TypeExpr) :
    ∀ c ∈ t.word ofClass ofVar, c ∉ marks := by
  unfold word
  cases t.name? with
  | none => exact nofun
  | some x => exact hl.not_mem_marks x

theorem name?_eq_of_word_eq (hl : Legible ofClass ofVar)
    (h : t.word ofClass ofVar = u.word ofClass ofVar) : t.name? = u.name? := by
  unfold word at h
  generalize t.name? = x?, u.name? = y? at h
  cases x? with
  | none =>
    cases y? with
    | none => rfl
    | some y => exact absurd h.symm (hl.ne_nil y)
  | some x =>
    cases y? with
    | none => exact absurd h (hl.ne_nil x)
    | some y => rw [hl.injective h]

theorem startsIn_afterWord_append (t : TypeExpr) (hrest : StartsIn ['[', ',', '>'] rest) :
    StartsIn marks (t.afterWord ofClass ofVar ++ rest) := by
  cases t with
  | unknown => exact startsIn_cons.2 (by decide)
  | applied raw ts s => exact startsIn_cons.2 (by decide)
  | _ => exact hrest.mono (by decide)

/-- Without array brackets, a type is its class or variable and its arguments. -/
theorem spell_append_inj_of_brackets (hl : Legible ofClass ofVar) (ht : t.brackets = 0)
    (hu : u.brackets = 0) (hargs : ∀ w ∈ t.args, ReadsBack ofClass ofVar w)
    (hrest : StartsIn ['[', ',', '>'] rest) (hrest' : StartsIn ['[', ',', '>'] rest')
    (h : t.spell ofClass ofVar ++ rest = u.spell ofClass ofVar ++ rest') :
    t.bare = u.bare ∧ rest = rest' := by
  rw [spell_eq_word_append ht, spell_eq_word_append hu, List.append_assoc, List.append_assoc] at h
  obtain ⟨hword, hafter⟩ := word_append_inj (not_mem_marks_of_mem_word hl t)
    (not_mem_marks_of_mem_word hl u) (startsIn_afterWord_append t hrest)
    (startsIn_afterWord_append u hrest') h
  have hname := name?_eq_of_word_eq hl hword
  cases t with
  | unknown =>
    cases u with
    | unknown => exact ⟨rfl, (List.cons.inj hafter).2⟩
    | array u s' => exact absurd hu (Nat.succ_ne_zero _)
    | _ => simp [name?] at hname
  | plain c s =>
    cases u with
    | plain d s' =>
      obtain rfl : c = d := by simpa [name?] using hname
      exact ⟨rfl, hafter⟩
    | applied d us s' =>
      -- the arguments of `u` begin where `t` has ended
      exact absurd hafter (hrest.ne_cons (by decide))
    | _ => simp [name?] at hname
  | array t s => exact absurd ht (Nat.succ_ne_zero _)
  | applied c ts s =>
    cases u with
    | plain d s' => exact absurd hafter.symm (hrest'.ne_cons (by decide))
    | applied d us s' =>
      obtain rfl : c = d := by simpa [name?] using hname
      simp only [afterWord, List.cons_append, List.append_assoc, List.cons.injEq, true_and,
        List.nil_append] at hafter
      obtain ⟨hbares, hrests⟩ := spellAll_append_inj hl hargs hafter
      exact ⟨by rw [bare, bare, bareAll_eq, bareAll_eq, ← hbares, args], hrests⟩
    | _ => simp [name?] at hname
  | var v s =>
    cases u with
    | var w s' =>
      obtain rfl : v = w := by simpa [name?] using hname
      exact ⟨rfl, hafter⟩
    | _ => simp [name?] at hname

/-- A type and what follows it can be told from the text they make together. -/
theorem readsBack (hl : Legible ofClass ofVar) (t : TypeExpr) : ReadsBack ofClass ofVar t := by
  induction t using unbracketed_induct with
  | step t ih =>
    intro u rest rest' hrest hrest' h
    rw [spell_eq_append_pairs t, spell_eq_append_pairs u, List.append_assoc, List.append_assoc] at h
    obtain ⟨hbare, hpairs⟩ := spell_append_inj_of_brackets hl (brackets_unbracketed t)
      (brackets_unbracketed u) ih (startsIn_pairs_append _ hrest) (startsIn_pairs_append _ hrest') h
    obtain ⟨hbrackets, hrests⟩ := pairs_append_inj hrest hrest' hpairs
    exact ⟨bare_eq_of_unbracketed hbrackets hbare, hrests⟩

/-! ### Descriptions -/

mutual

/-- The spelling does not tell one instance from another. -/
theorem spell_bare (t : TypeExpr) : t.bare.spell ofClass ofVar = t.spell ofClass ofVar := by
  cases t with
  | array t s => rw [bare, spell, spell, spell_bare t]
  | applied raw ts s => rw [bare, spell, spell, spellAll_bareAll ts]
  | _ => rfl

theorem spellAll_bareAll (ts : List TypeExpr) :
    spellAll ofClass ofVar (bareAll ts) = spellAll ofClass ofVar ts := by
  match ts with
  | [] => rfl
  | [t] => exact spell_bare t
  | t :: u :: ts =>
    rw [bareAll, bareAll, spellAll, spellAll, spell_bare t, ← bareAll, spellAll_bareAll (u :: ts)]

end

theorem spell_eq_spell_iff (hl : Legible ofClass ofVar) :
    t.spell ofClass ofVar = u.spell ofClass ofVar ↔ t.bare = u.bare := by
  constructor
  · intro h
    exact (readsBack hl t (startsIn_nil _) (startsIn_nil _) (congrArg (· ++ []) h)).1
  · intro h
    rw [← spell_bare t, h, spell_bare u]

/-- Two types have the same description exactly if they are built alike.  That is so of all types,
even of a class applied to no arguments, which `apply` never makes. -/
theorem description_eq_iff (t u : TypeExpr) :
    t.description = u.description ↔ t.alike u = true := by
  rw [description, description, String.ofList_inj, spell_eq_spell_iff legible_ids, alike_iff]

/-- Arrays as an argument, and the arrays of a type with an argument. -/
example :
    (applied 20 [array (plain 1 .shared) .shared] .shared).description = "#20<#1[]>" ∧
      (array (applied 20 [plain 1 .shared] .shared) .shared).description = "#20<#1>[]" := by
  decide

end TypeExpr

end ScriptSurface
