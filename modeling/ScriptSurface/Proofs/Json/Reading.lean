import Mathlib.Data.List.DropRight
import Mathlib.Data.List.TakeWhile
import ScriptSurface.Proofs.Json.Grammar

/-!
# Documents are read by the grammar

A text of a value is read as that value, and what follows it is left (`Json.readValue?_of_isText`).
The induction goes along the rules of the grammar; each of them takes two steps of reading at most
for the characters it stands for, so there is always fuel for the rest.  A number would go on with
what follows it if that looked like more of the number, so something else must follow there
(`Json.EndsNumber`), as it does within arrays and objects.

So a document with a text of a value and blanks around it is read as the value, and one with
anything else after it is not read (`Json.read?_of_isText`).
-/

namespace ScriptSurface.Json

/-! ### Blanks -/

theorem skipSpace_append {before : List Char} (h : Blanks before) (cs : List Char) :
    skipSpace (before ++ cs) = skipSpace cs :=
  List.dropWhile_append_of_pos h

theorem skipSpace_cons {c : Char} (hc : isSpace c = false) (cs : List Char) :
    skipSpace (c :: cs) = c :: cs :=
  List.dropWhile_cons_of_neg (by simp [hc])

theorem skipSpace_skipSpace (cs : List Char) : skipSpace (skipSpace cs) = skipSpace cs :=
  List.dropWhile_idempotent isSpace cs

theorem isEmpty_skipSpace_iff (cs : List Char) : (skipSpace cs).isEmpty = true ↔ Blanks cs := by
  rw [List.isEmpty_iff, skipSpace, List.dropWhile_eq_nil_iff]
  rfl

/-! ### Strings -/

theorem hexDigit?_lt {c : Char} {n : ℕ} (h : hexDigit? c = some n) : n < 16 := by
  unfold hexDigit? isDigit at h
  simp only [Char.reduceToNat, Bool.and_eq_true, decide_eq_true_eq] at h
  split_ifs at h <;> (rw [Option.some.injEq] at h; omega)

theorem hexUnit?_lt {a b c d : Char} {n : ℕ} (h : hexUnit? a b c d = some n) : n < 0x10000 := by
  simp only [hexUnit?, Option.bind_eq_bind, Option.bind_eq_some_iff, Option.pure_def,
    Option.some.injEq] at h
  obtain ⟨x, hx, y, hy, z, hz, w, hw, rfl⟩ := h
  have hx := hexDigit?_lt hx
  have hy := hexDigit?_lt hy
  have hz := hexDigit?_lt hz
  have hw := hexDigit?_lt hw
  omega

/-- Code points of characters are in range and no halves of surrogate pairs. -/
theorem isValidChar_iff (n : ℕ) : n.isValidChar ↔
    n < 0x110000 ∧ (isHighSurrogate n || isLowSurrogate n) = false := by
  unfold Nat.isValidChar isHighSurrogate isLowSurrogate
  simp
  omega

theorem toNat_ofNat {n : ℕ} (h : n.isValidChar) : (Char.ofNat n).toNat = n := by
  rw [Char.ofNat, dif_pos h]
  rfl

theorem Spells.lt {cs : List Char} {ns : List ℕ} (h : Spells cs ns) : ∀ n ∈ ns, n < 0x110000 := by
  have hchar : ∀ c : Char, c.toNat < 0x110000 := fun c => ((isValidChar_iff _).1 c.valid).1
  induction h with
  | nil => nofun
  | @plain c _ _ _ _ _ _ ih => exact List.forall_mem_cons.2 ⟨hchar c, ih⟩
  | @short _ c _ _ _ _ ih => exact List.forall_mem_cons.2 ⟨hchar c, ih⟩
  | unit hn _ ih => exact List.forall_mem_cons.2 ⟨lt_trans (hexUnit?_lt hn) (by decide), ih⟩

theorem ne_u_of_shortEscape? {e c : Char} (h : shortEscape? e = some c) : e ≠ 'u' := by
  rintro rfl
  cases h

/-- The code points that are spelled are those that are scanned, up to the closing quote. -/
theorem scanString_of_spells {cs : List Char} {ns : List ℕ} (h : Spells cs ns)
    (rest : List Char) : scanString (cs ++ '"' :: rest) = some (ns, rest) := by
  induction h with
  | nil => rfl
  | plain hquote hescape hcontrol _ ih =>
    rw [List.cons_append, scanString]
    · rw [if_neg (by omega), ih]
      rfl
    · exact hquote
    · rintro a b c d r ⟨⟩
      exact absurd rfl hescape
    · rintro e r ⟨⟩
      exact absurd rfl hescape
  | short hc _ ih =>
    rw [List.cons_append, List.cons_append, scanString]
    · rw [hc, ih]
      rfl
    · exact fun _ _ _ _ _ he => absurd he (ne_u_of_shortEscape? hc)
  | unit hn _ ih =>
    simp only [List.cons_append, scanString]
    rw [hn, ih]
    rfl

theorem joinSurrogates_cons (c : Char) (ns : List ℕ) :
    joinSurrogates (c.toNat :: ns) = (joinSurrogates ns).map (c :: ·) := by
  have hc : (isHighSurrogate c.toNat || isLowSurrogate c.toNat) = false :=
    ((isValidChar_iff _).1 c.valid).2
  obtain ⟨hhigh, hlow⟩ := Bool.or_eq_false_iff.1 hc
  cases ns with
  | nil => simp [joinSurrogates, hhigh, hlow]
  | cons m rest => simp [joinSurrogates, hhigh, hlow]

theorem Encodes.cons_ofNat {n : ℕ} {ns : List ℕ} {cs : List Char} (hn : n < 0x110000)
    (hhalf : ¬(isHighSurrogate n || isLowSurrogate n) = true) (h : Encodes ns cs) :
    Encodes (n :: ns) (Char.ofNat n :: cs) := by
  have hvalid := (isValidChar_iff n).2 ⟨hn, by simpa using hhalf⟩
  have hencodes := Encodes.char (c := Char.ofNat n) h
  rwa [toNat_ofNat hvalid] at hencodes

theorem isValidChar_of_pair {high low : ℕ} (hhigh : isHighSurrogate high = true)
    (hlow : isLowSurrogate low = true) :
    (0x10000 + (high - 0xD800) * 0x400 + (low - 0xDC00)).isValidChar := by
  unfold isHighSurrogate at hhigh
  unfold isLowSurrogate at hlow
  simp only [Bool.and_eq_true, decide_eq_true_eq] at hhigh hlow
  exact .inr (by omega)

/-- Code points are joined to the text that they encode. -/
theorem joinSurrogates_eq_some_iff {ns : List ℕ} (hns : ∀ n ∈ ns, n < 0x110000) (cs : List Char) :
    joinSurrogates ns = some cs ↔ Encodes ns cs := by
  constructor
  · intro h
    fun_induction joinSurrogates ns generalizing cs with
    | case1 =>
      obtain rfl := Option.some.inj h
      exact .nil
    | case2 => cases h
    | case3 n hhalf =>
      obtain rfl := Option.some.inj h
      exact .cons_ofNat (hns n (by simp)) hhalf .nil
    | case4 n m rest hpair ih =>
      obtain ⟨ds, hds, rfl⟩ := Option.map_eq_some_iff.1 h
      obtain ⟨hhigh, hlow⟩ := Bool.and_eq_true_iff.1 hpair
      have hrest := ih (fun k hk => hns k (by simp [hk])) ds hds
      exact .pair hhigh hlow (toNat_ofNat (isValidChar_of_pair hhigh hlow)) hrest
    | case5 => cases h
    | case6 n m rest _ hhalf ih =>
      obtain ⟨ds, hds, rfl⟩ := Option.map_eq_some_iff.1 h
      have hrest := ih (fun k hk => hns k (List.mem_cons_of_mem _ hk)) ds hds
      exact .cons_ofNat (hns n (by simp)) hhalf hrest
  · intro h
    induction h with
    | nil => rfl
    | char _ ih =>
      rw [joinSurrogates_cons, ih fun n hn => hns n (List.mem_cons_of_mem _ hn)]
      rfl
    | pair hhigh hlow hc _ ih =>
      have hrest := ih fun n hn => hns n (by simp [hn])
      rw [joinSurrogates, hhigh, hlow, hrest, ← hc, Char.ofNat_toNat]
      rfl

theorem encodes_map_toNat (cs : List Char) : Encodes (cs.map Char.toNat) cs := by
  induction cs with
  | nil => exact .nil
  | cons c cs ih => exact .char ih

/-- What spells the code points of the characters of a text stands for the text. -/
theorem Spells.isString {text : String} {cs : List Char}
    (h : Spells cs (text.toList.map Char.toNat)) : IsString (some text) cs := by
  refine ⟨_, h, fun t => ?_⟩
  rw [← joinSurrogates_eq_some_iff h.lt,
    (joinSurrogates_eq_some_iff h.lt _).2 (encodes_map_toNat text.toList), Option.some.injEq,
    Option.some.injEq, String.toList_inj]

theorem readString?_of_isString {text : Option String} {cs : List Char} (h : IsString text cs)
    (rest : List Char) : readString? (cs ++ '"' :: rest) = some (text, rest) := by
  obtain ⟨ns, hspells, htext⟩ := h
  have hjoin : (joinSurrogates ns).map String.ofList = text := by
    refine Option.ext fun t => ?_
    rw [htext, ← joinSurrogates_eq_some_iff hspells.lt]
    constructor
    · intro ht
      obtain ⟨ds, hds, rfl⟩ := Option.map_eq_some_iff.1 ht
      rwa [String.toList_ofList]
    · intro ht
      rw [ht, Option.map_some, String.ofList_toList]
  unfold readString?
  rw [scanString_of_spells hspells]
  exact congrArg (fun t => some (t, rest)) hjoin

/-! ### Numbers -/

/-- No longer number begins where a number ends. -/
def EndsNumber (rest : List Char) : Prop :=
  ∀ c ∈ rest.head?, isDigit c = false ∧ c ≠ '.' ∧ c ≠ 'e' ∧ c ≠ 'E'

theorem readDigits?_append {digits rest : List Char} (h : IsDigits digits)
    (hrest : ∀ c ∈ rest.head?, isDigit c = false) :
    readDigits? (digits ++ rest) = some (digits, rest) := by
  have htake : rest.takeWhile isDigit = [] := by
    cases rest with
    | nil => rfl
    | cons c rest => exact List.takeWhile_cons_of_neg (by simp [hrest c rfl])
  have hdrop : rest.dropWhile isDigit = rest := by
    cases rest with
    | nil => rfl
    | cons c rest => exact List.dropWhile_cons_of_neg (by simp [hrest c rfl])
  unfold readDigits?
  rw [List.takeWhile_append_of_pos h.2, List.dropWhile_append_of_pos h.2, htake, hdrop,
    List.append_nil]
  have hne : digits.isEmpty = false := by
    rw [List.isEmpty_eq_false_iff]
    exact h.1
  simp only [hne]
  rfl

theorem readWhole?_append {whole rest : List Char} (h : IsWhole whole)
    (hrest : ∀ c ∈ rest.head?, isDigit c = false) :
    readWhole? (whole ++ rest) = some (whole, rest) := by
  have hzero : (whole.head? = some '0' && whole.length ≠ 1) = false := by
    rw [Bool.and_eq_false_iff, decide_eq_false_iff_not, decide_eq_false_iff_not, not_not]
    by_cases hhead : whole.head? = some '0'
    · right
      rw [h.2 hhead]
      rfl
    · exact .inl hhead
  unfold readWhole?
  rw [readDigits?_append h.1 hrest]
  show (if (whole.head? = some '0' && whole.length ≠ 1) = true then none else _) = _
  rw [hzero]
  rfl

theorem readFraction?_append {fraction rest : List Char} (h : IsFraction fraction)
    (hrest : ∀ c ∈ rest.head?, isDigit c = false ∧ c ≠ '.') :
    readFraction? (fraction ++ rest) = some (fraction, rest) := by
  rcases h with rfl | ⟨digits, rfl, hdigits⟩
  · rw [List.nil_append, readFraction?]
    rintro ds rfl
    exact absurd rfl (hrest '.' rfl).2
  · rw [List.cons_append, readFraction?, readDigits?_append hdigits fun c hc => (hrest c hc).1]
    rfl


theorem IsDigits.exists_cons {digits : List Char} (h : IsDigits digits) :
    ∃ c cs, digits = c :: cs ∧ isDigit c = true := by
  obtain ⟨c, cs, rfl⟩ := List.exists_cons_of_ne_nil h.1
  exact ⟨c, cs, rfl, h.2 c List.mem_cons_self⟩

theorem readSignedDigits?_append {sign digits rest : List Char}
    (hsign : sign = [] ∨ sign = ['+'] ∨ sign = ['-']) (hdigits : IsDigits digits)
    (hrest : ∀ c ∈ rest.head?, isDigit c = false) :
    readSignedDigits? (sign ++ digits ++ rest) = some (sign ++ digits, rest) := by
  have hread := readDigits?_append hdigits hrest
  rcases hsign with rfl | rfl | rfl
  · rw [List.nil_append, readSignedDigits?, hread]
    · rintro ds hds
      obtain ⟨c, cs, rfl, hc⟩ := hdigits.exists_cons
      obtain ⟨rfl, -⟩ := List.cons.inj hds
      cases hc
    · rintro ds hds
      obtain ⟨c, cs, rfl, hc⟩ := hdigits.exists_cons
      obtain ⟨rfl, -⟩ := List.cons.inj hds
      cases hc
  · show (readDigits? (digits ++ rest)).bind _ = _
    rw [hread]
    rfl
  · show (readDigits? (digits ++ rest)).bind _ = _
    rw [hread]
    rfl

theorem readExponent?_append {exponent rest : List Char} (h : IsExponent exponent)
    (hrest : EndsNumber rest) : readExponent? (exponent ++ rest) = some (exponent, rest) := by
  rcases h with rfl | ⟨e, sign, digits, rfl, he, hsign, hdigits⟩
  · rw [List.nil_append, readExponent?]
    · rintro ds rfl
      exact absurd rfl (hrest 'e' rfl).2.2.1
    · rintro ds rfl
      exact absurd rfl (hrest 'E' rfl).2.2.2
  · have hread := readSignedDigits?_append hsign hdigits fun c hc => (hrest c hc).1
    rcases he with rfl | rfl
    · rw [List.cons_append, readExponent?, hread]
      rfl
    · rw [List.cons_append, readExponent?, hread]
      rfl

/-- Where an exponent begins, and where a number ends, there is no more digit and no point. -/
theorem head?_exponent_append {exponent rest : List Char} (h : IsExponent exponent)
    (hrest : EndsNumber rest) : ∀ c ∈ (exponent ++ rest).head?, isDigit c = false ∧ c ≠ '.' := by
  rcases h with rfl | ⟨e, sign, digits, rfl, rfl | rfl, -⟩
  · exact fun c hc => ⟨(hrest c hc).1, (hrest c hc).2.1⟩
  · rintro c ⟨⟩
    decide
  · rintro c ⟨⟩
    decide

theorem head?_fraction_append {fraction rest : List Char} (h : IsFraction fraction)
    (hrest : ∀ c ∈ rest.head?, isDigit c = false) :
    ∀ c ∈ (fraction ++ rest).head?, isDigit c = false := by
  rcases h with rfl | ⟨digits, rfl, -⟩
  · exact hrest
  · rintro c ⟨⟩
    decide

theorem readNumber?_append {cs rest : List Char} (h : IsNumber cs) (hrest : EndsNumber rest) :
    readNumber? (cs ++ rest) = some (cs, rest) := by
  obtain ⟨sign, whole, fraction, exponent, rfl, hsign, hwhole, hfraction, hexponent⟩ := h
  have hafter := head?_exponent_append hexponent hrest
  have hunsigned : readUnsigned? (whole ++ (fraction ++ exponent) ++ rest)
      = some (whole ++ (fraction ++ exponent), rest) := by
    unfold readUnsigned?
    rw [List.append_assoc, List.append_assoc, readWhole?_append hwhole
      (head?_fraction_append hfraction fun c hc => (hafter c hc).1)]
    show (readFraction? (fraction ++ (exponent ++ rest))).bind _ = _
    rw [readFraction?_append hfraction hafter]
    show (readExponent? (exponent ++ rest)).bind _ = _
    rw [readExponent?_append hexponent hrest]
    show some (whole ++ fraction ++ exponent, rest) = _
    rw [List.append_assoc]
  rcases hsign with rfl | rfl
  · obtain ⟨c, ds, rfl, hc⟩ := hwhole.1.exists_cons
    rw [List.nil_append, readNumber?, hunsigned]
    rintro ds' hds
    obtain ⟨rfl, -⟩ := List.cons.inj hds
    cases hc
  · show (readUnsigned? (whole ++ (fraction ++ exponent) ++ rest)).bind _ = _
    rw [hunsigned]
    rfl

theorem IsNumber.exists_cons {cs : List Char} (h : IsNumber cs) :
    ∃ c ds, cs = c :: ds ∧ (c = '-' ∨ isDigit c = true) := by
  obtain ⟨sign, whole, fraction, exponent, rfl, rfl | rfl, hwhole, -⟩ := h
  · obtain ⟨c, ds, rfl, hc⟩ := hwhole.1.exists_cons
    exact ⟨c, _, rfl, .inr hc⟩
  · exact ⟨'-', _, rfl, .inl rfl⟩

/-! ### Values -/

/-- The value ends where this follows: only a number might go on. -/
def EndsBefore (rest : List Char) : Json → Prop
  | number _ => EndsNumber rest
  | _ => True

theorem endsNumber_of_blanks {after rest : List Char} (h : Blanks after)
    (hrest : EndsNumber rest) : EndsNumber (after ++ rest) := by
  cases after with
  | nil => exact hrest
  | cons c after =>
    rintro d ⟨⟩
    have hd := h _ List.mem_cons_self
    unfold isSpace at hd
    simp only [Bool.or_eq_true, decide_eq_true_eq] at hd
    rcases hd with ((rfl | rfl) | rfl) | rfl <;> decide

theorem EndsNumber.endsBefore {rest : List Char} (h : EndsNumber rest) (v : Json) :
    v.EndsBefore rest := by
  cases v with
  | number => exact h
  | _ => trivial

theorem readValue?_skipSpace (fuel : ℕ) (cs : List Char) :
    readValue? fuel (skipSpace cs) = readValue? fuel cs := by
  cases fuel with
  | zero => rfl
  | succ fuel => rw [readValue?, readValue?, skipSpace_skipSpace]

theorem readItems?_skipSpace (fuel : ℕ) (cs : List Char) :
    readItems? fuel (skipSpace cs) = readItems? fuel cs := by
  cases fuel with
  | zero => rfl
  | succ fuel => rw [readItems?, readItems?, readValue?_skipSpace]

theorem readMembers?_skipSpace (fuel : ℕ) (cs : List Char) :
    readMembers? fuel (skipSpace cs) = readMembers? fuel cs := by
  cases fuel with
  | zero => rfl
  | succ fuel => rw [readMembers?, readMembers?, skipSpace_skipSpace]

theorem readValue?_append {before : List Char} (h : Blanks before) (fuel : ℕ) (cs : List Char) :
    readValue? fuel (before ++ cs) = readValue? fuel cs := by
  rw [← readValue?_skipSpace, skipSpace_append h, readValue?_skipSpace]

theorem isSpace_eq_false {c : Char} (hc : c = '-' ∨ isDigit c = true) : isSpace c = false := by
  rw [← Bool.not_eq_true]
  intro hspace
  unfold isSpace at hspace
  simp only [Bool.or_eq_true, decide_eq_true_eq] at hspace
  rcases hspace with ((rfl | rfl) | rfl) | rfl <;> rcases hc with hc | hc <;> cases hc

theorem readValue?_number {cs rest : List Char} (h : IsNumber cs) (hrest : EndsNumber rest)
    (fuel : ℕ) : readValue? (fuel + 1) (cs ++ rest) = some (.number cs, rest) := by
  have hread := readNumber?_append h hrest
  obtain ⟨c, ds, rfl, hc⟩ := h.exists_cons
  rw [List.cons_append] at hread ⊢
  rw [readValue?, skipSpace_cons (isSpace_eq_false hc)]
  split
  case h_7 =>
    rw [hread]
    rfl
  -- no word, string, array or object begins with a sign or a digit
  all_goals
    rename_i heq
    obtain ⟨rfl, -⟩ := List.cons.inj heq
    rcases hc with hc | hc <;> cases hc

theorem readValue?_emptyArray {cs : List Char} (h : Blanks cs) (fuel : ℕ) (rest : List Char) :
    readValue? (fuel + 1) ('[' :: (cs ++ ']' :: rest)) = some (.array [], rest) := by
  have hbracket : skipSpace ('[' :: (cs ++ ']' :: rest)) = '[' :: (cs ++ ']' :: rest) :=
    skipSpace_cons (by rfl) _
  have hskip : skipSpace (cs ++ ']' :: rest) = ']' :: rest := by
    rw [skipSpace_append h]
    exact skipSpace_cons (by rfl) rest
  simp only [readValue?, hbracket, hskip]

theorem readValue?_emptyObject {cs : List Char} (h : Blanks cs) (fuel : ℕ) (rest : List Char) :
    readValue? (fuel + 1) ('\x7b' :: (cs ++ '\x7d' :: rest)) = some (.object [], rest) := by
  have hbrace : skipSpace ('\x7b' :: (cs ++ '\x7d' :: rest)) = '\x7b' :: (cs ++ '\x7d' :: rest) :=
    skipSpace_cons (by rfl) _
  have hskip : skipSpace (cs ++ '\x7d' :: rest) = '\x7d' :: rest := by
    rw [skipSpace_append h]
    exact skipSpace_cons (by rfl) rest
  simp only [readValue?, hbrace, hskip]

theorem readValue?_array {fuel : ℕ} {cs rest : List Char} {items : List Json}
    (hhead : ∀ ds, skipSpace cs ≠ ']' :: ds) (h : readItems? fuel cs = some (items, rest)) :
    readValue? (fuel + 1) ('[' :: cs) = some (.array items, rest) := by
  have hbracket : skipSpace ('[' :: cs) = '[' :: cs := skipSpace_cons (by rfl) cs
  -- the closing bracket does not follow at once, by `hhead`
  simp only [readValue?, hbracket]
  rw [readItems?_skipSpace, h]
  rfl

theorem readValue?_object {fuel : ℕ} {cs rest : List Char} {members : List (Option String × Json)}
    (hhead : ∀ ds, skipSpace cs ≠ '\x7d' :: ds)
    (h : readMembers? fuel cs = some (members, rest)) :
    readValue? (fuel + 1) ('\x7b' :: cs) = some (.object members, rest) := by
  have hbrace : skipSpace ('\x7b' :: cs) = '\x7b' :: cs := skipSpace_cons (by rfl) cs
  -- the closing brace does not follow at once, by `hhead`
  simp only [readValue?, hbrace]
  rw [readMembers?_skipSpace, h]
  rfl

/-- No value begins with a blank or a closing bracket. -/
theorem IsText.exists_cons {v : Json} {cs : List Char} (h : IsText v cs) :
    ∃ c ds, cs = c :: ds ∧ isSpace c = false ∧ c ≠ ']' := by
  cases h with
  | number h =>
    obtain ⟨c, ds, rfl, hc⟩ := h.exists_cons
    refine ⟨c, ds, rfl, isSpace_eq_false hc, ?_⟩
    rintro rfl
    rcases hc with hc | hc <;> cases hc
  | _ => exact ⟨_, _, rfl, rfl, by decide⟩

theorem AreItems.skipSpace_ne {items : List Json} {cs : List Char} (h : AreItems items cs)
    (rest : List Char) : ∀ ds, skipSpace (cs ++ rest) ≠ ']' :: ds := by
  have hhead : ∀ {v before cs} {after : List Char}, Blanks before → IsText v cs →
      ∀ ds, skipSpace (before ++ (cs ++ after)) ≠ ']' :: ds := by
    intro v before cs after hbefore hv ds hds
    obtain ⟨c, cs, rfl, hspace, hc⟩ := hv.exists_cons
    rw [skipSpace_append hbefore, List.cons_append, skipSpace_cons hspace] at hds
    exact hc (List.cons.inj hds).1
  intro ds
  cases h with
  | last hbefore h hafter =>
    rw [List.append_assoc, List.append_assoc]
    exact hhead hbefore h ds
  | cons hbefore h hafter hrest =>
    rw [List.append_assoc, List.append_assoc]
    exact hhead hbefore h ds

theorem AreMembers.skipSpace_ne {members : List (Option String × Json)} {cs : List Char}
    (h : AreMembers members cs) (rest : List Char) :
    ∀ ds, skipSpace (cs ++ rest) ≠ '\x7d' :: ds := by
  have hhead : ∀ {key v cs} {rest : List Char}, IsMember key v cs →
      ∀ ds, skipSpace (cs ++ rest) ≠ '\x7d' :: ds := by
    rintro key v _ rest ⟨hbefore, -, -, -, -, -⟩ ds hds
    rw [List.append_assoc, skipSpace_append hbefore, List.cons_append,
      skipSpace_cons (by rfl)] at hds
    exact absurd (List.cons.inj hds).1 (by decide)
  intro ds
  cases h with
  | last h => exact hhead h ds
  | cons h _ =>
    rw [List.append_assoc]
    exact hhead h ds

theorem endsNumber_cons {c : Char} (hc : c = ',' ∨ c = ']' ∨ c = '\x7d') (rest : List Char) :
    EndsNumber (c :: rest) := by
  rintro d ⟨⟩
  rcases hc with rfl | rfl | rfl <;> decide

/-- An item that is read is the last one before a bracket, and not before a comma. -/
theorem readItems?_item {fuel : ℕ} {v : Json} {before cs after rest : List Char} {c : Char}
    (hbefore : Blanks before) (hafter : Blanks after) (hc : isSpace c = false)
    (hread : readValue? fuel (cs ++ (after ++ c :: rest)) = some (v, after ++ c :: rest)) :
    readItems? (fuel + 1) (before ++ (cs ++ (after ++ c :: rest))) = match c :: rest with
      | ',' :: rest => (readItems? fuel rest).bind fun p => some (v :: p.1, p.2)
      | ']' :: rest => some ([v], rest)
      | _ => none := by
  rw [readItems?, readValue?_append hbefore, hread]
  show (match skipSpace (after ++ c :: rest) with
    | ',' :: rest => (readItems? fuel rest).bind fun p => some (v :: p.1, p.2)
    | ']' :: rest => some ([v], rest)
    | _ => none) = _
  rw [skipSpace_append hafter, skipSpace_cons hc]

/-- A member that is read is the last one before a brace, and not before a comma. -/
theorem readMembers?_member {fuel : ℕ} {key : Option String} {v : Json}
    {before ks between cs₁ cs after rest : List Char} {c : Char} (hbefore : Blanks before)
    (hkey : IsString key ks) (hbetween : Blanks between) (hcs₁ : Blanks cs₁)
    (hafter : Blanks after) (hc : isSpace c = false)
    (hread : readValue? fuel (cs ++ (after ++ c :: rest)) = some (v, after ++ c :: rest)) :
    readMembers? (fuel + 1)
        (before ++ '"' :: (ks ++ '"' :: (between ++ ':' :: (cs₁ ++ (cs ++ (after ++ c :: rest))))))
      = match c :: rest with
        | ',' :: rest => (readMembers? fuel rest).bind fun p => some ((key, v) :: p.1, p.2)
        | '\x7d' :: rest => some ([(key, v)], rest)
        | _ => none := by
  have hquote := skipSpace_cons (c := '"') rfl
  have hcolon := skipSpace_cons (c := ':') rfl
  simp only [readMembers?, skipSpace_append hbefore, hquote, readString?_of_isString hkey,
    Option.bind_eq_bind, Option.bind_some, skipSpace_append hbetween, hcolon,
    readValue?_append hcs₁, hread, skipSpace_append hafter, skipSpace_cons hc]
  rfl

mutual

/-- A text of a value is read as the value, whatever follows it. -/
theorem readValue?_of_isText : ∀ {v : Json} {cs : List Char}, IsText v cs →
    ∀ (fuel : ℕ) (rest : List Char), 2 * cs.length ≤ fuel → v.EndsBefore rest →
      readValue? fuel (cs ++ rest) = some (v, rest)
  | _, _, .null, fuel + 1, rest, _, _ => rfl
  | _, _, .boolTrue, fuel + 1, rest, _, _ => rfl
  | _, _, .boolFalse, fuel + 1, rest, _, _ => rfl
  | _, _, .number h, fuel, rest, hfuel, hends => by
    obtain ⟨n, rfl⟩ : ∃ n, fuel = n + 1 := by
      obtain ⟨c, ds, rfl, -⟩ := h.exists_cons
      rw [List.length_cons] at hfuel
      exact ⟨fuel - 1, by omega⟩
    exact readValue?_number h hends n
  | _, _, @IsText.string _ cs h, fuel + 1, rest, _, _ => by
    have hread := readString?_of_isString h rest
    rw [List.cons_append, List.append_assoc]
    show (readString? (cs ++ '"' :: rest)).bind _ = _
    rw [hread]
    rfl
  | _, _, @IsText.emptyArray cs h, fuel + 1, rest, _, _ => by
    rw [List.cons_append, List.append_assoc]
    exact readValue?_emptyArray h fuel rest
  | _, _, @IsText.array _ cs h, fuel + 1, rest, hfuel, _ => by
    rw [List.length_cons, List.length_append, List.length_singleton] at hfuel
    rw [List.cons_append, List.append_assoc]
    exact readValue?_array (h.skipSpace_ne _) (readItems?_of_areItems h _ _ (by omega))
  | _, _, @IsText.emptyObject cs h, fuel + 1, rest, _, _ => by
    rw [List.cons_append, List.append_assoc]
    exact readValue?_emptyObject h fuel rest
  | _, _, @IsText.object _ cs h, fuel + 1, rest, hfuel, _ => by
    rw [List.length_cons, List.length_append, List.length_singleton] at hfuel
    rw [List.cons_append, List.append_assoc]
    exact readValue?_object (h.skipSpace_ne _) (readMembers?_of_areMembers h _ _ (by omega))

/-- A text of items is read as the items. -/
theorem readItems?_of_areItems : ∀ {items : List Json} {cs : List Char}, AreItems items cs →
    ∀ (fuel : ℕ) (rest : List Char), 2 * cs.length + 1 ≤ fuel →
      readItems? fuel (cs ++ ']' :: rest) = some (items, rest)
  | _, _, .last hbefore h hafter, fuel + 1, rest, hfuel => by
    simp only [List.length_append] at hfuel
    have hends := endsNumber_of_blanks hafter (endsNumber_cons (c := ']') (by decide) rest)
    have hread := readValue?_of_isText h fuel _ (by omega) (hends.endsBefore _)
    rw [List.append_assoc, List.append_assoc]
    exact readItems?_item hbefore hafter rfl hread
  | _, _, @AreItems.cons _ _ _ _ _ ds hbefore h hafter hrest, fuel + 1, rest, hfuel => by
    simp only [List.length_append, List.length_cons] at hfuel
    have hends := endsNumber_of_blanks hafter
      (endsNumber_cons (c := ',') (by decide) (ds ++ ']' :: rest))
    have hread := readValue?_of_isText h fuel _ (by omega) (hends.endsBefore _)
    have hitems := readItems?_of_areItems hrest fuel rest (by omega)
    rw [List.append_assoc, List.append_assoc, List.append_assoc, List.cons_append,
      readItems?_item hbefore hafter rfl hread]
    show (readItems? fuel (ds ++ ']' :: rest)).bind _ = _
    rw [hitems]
    rfl

/-- A text of members is read as the members. -/
theorem readMembers?_of_areMembers : ∀ {members : List (Option String × Json)} {cs : List Char},
    AreMembers members cs → ∀ (fuel : ℕ) (rest : List Char), 2 * cs.length + 1 ≤ fuel →
      readMembers? fuel (cs ++ '\x7d' :: rest) = some (members, rest)
  | _, _, .last (.intro hbefore hkey hbetween hcs₁ h hafter), fuel + 1, rest, hfuel => by
    simp only [List.length_append, List.length_cons] at hfuel
    have hends := endsNumber_of_blanks hafter (endsNumber_cons (c := '\x7d') (by decide) rest)
    have hread := readValue?_of_isText h fuel _ (by omega) (hends.endsBefore _)
    simp only [List.append_assoc, List.cons_append]
    exact readMembers?_member hbefore hkey hbetween hcs₁ hafter rfl hread
  | _, _, @AreMembers.cons _ _ _ _ ds (.intro hbefore hkey hbetween hcs₁ h hafter) hrest,
      fuel + 1, rest, hfuel => by
    simp only [List.length_append, List.length_cons] at hfuel
    have hends := endsNumber_of_blanks hafter
      (endsNumber_cons (c := ',') (by decide) (ds ++ '\x7d' :: rest))
    have hread := readValue?_of_isText h fuel _ (by omega) (hends.endsBefore _)
    have hmembers := readMembers?_of_areMembers hrest fuel rest (by omega)
    simp only [List.append_assoc, List.cons_append]
    rw [readMembers?_member hbefore hkey hbetween hcs₁ hafter rfl hread]
    show (readMembers? fuel (ds ++ '\x7d' :: rest)).bind _ = _
    rw [hmembers]
    rfl

end

/-! ### Documents -/

/-- A document in which a value stands is read as the value if nothing but blanks follows, and not
read if anything else does. -/
theorem read?_of_isText {v : Json} {before cs after : List Char} (hbefore : Blanks before)
    (h : IsText v cs) (hends : v.EndsBefore after) :
    (Blanks after → read? (String.ofList (before ++ (cs ++ after))) = some v) ∧
      (¬Blanks after → read? (String.ofList (before ++ (cs ++ after))) = none) := by
  have hfuel : 2 * cs.length ≤ 2 * (before ++ (cs ++ after)).length + 2 := by
    simp only [List.length_append]
    omega
  have hread : read? (String.ofList (before ++ (cs ++ after)))
      = if (skipSpace after).isEmpty then some v else none := by
    unfold read?
    simp only [String.toList_ofList]
    rw [readValue?_append hbefore, readValue?_of_isText h _ _ hfuel hends]
    rfl
  rw [hread]
  constructor
  · intro hafter
    rw [if_pos ((isEmpty_skipSpace_iff after).2 hafter)]
  · intro hafter
    rw [if_neg fun hempty => hafter ((isEmpty_skipSpace_iff after).1 hempty)]

end ScriptSurface.Json
