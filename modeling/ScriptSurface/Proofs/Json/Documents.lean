import ScriptSurface.Json.Documents
import ScriptSurface.Proofs.Documents
import ScriptSurface.Proofs.Json.Reading

/-!
# Records are read from JSON and written as expected

The records of `Json.documents` are read and written by the rules (`Json.conforms_documents`): a
document is read by the grammar, and its members are then gone through one by one.

A whole number is a number of 32 bits in decimal digits.  A number of the grammar has no leading
zeros, so it is written with digits only if its text is that of its value
(`Json.toDigits_valueOfDigits`).  A text is written with escapes for the characters that cannot
stand for themselves in a string (`Json.spells_escape`).
-/

namespace ScriptSurface.Json

/-! ### Digits -/

theorem digitChar_sub {c : Char} (hc : isDigit c = true) :
    c.toNat - '0'.toNat < 10 ∧ Nat.digitChar (c.toNat - '0'.toNat) = c := by
  simp only [isDigit, Char.reduceToNat, Bool.and_eq_true, decide_eq_true_eq] at hc ⊢
  have hlt : c.toNat - 48 < 10 := by omega
  refine ⟨hlt, Char.toNat_inj.1 ?_⟩
  rw [Nat.toNat_digitChar_of_lt_ten hlt]
  omega

theorem toDigits_sub {c : Char} (hc : isDigit c = true) :
    Nat.toDigits 10 (c.toNat - '0'.toNat) = [c] := by
  obtain ⟨hlt, hchar⟩ := digitChar_sub hc
  rw [Nat.toDigits_of_lt_base hlt, hchar]

theorem isDigit_of_mem_toDigits {n : ℕ} {c : Char} (hc : c ∈ Nat.toDigits 10 n) :
    isDigit c = true := by
  have hdigit := Nat.isDigit_of_mem_toDigits (by decide) (by decide) hc
  simp only [Char.isDigit, Bool.and_eq_true, decide_eq_true_eq, ge_iff_le] at hdigit
  simp only [isDigit, Char.reduceToNat, Bool.and_eq_true, decide_eq_true_eq]
  exact hdigit

theorem valueOfDigits_eq (ds : List Char) : valueOfDigits ds = Nat.ofDigitChars 10 ds 0 := by
  unfold valueOfDigits Nat.ofDigitChars
  simp only [Nat.mul_comm]

theorem valueOfDigits_toDigits (n : ℕ) : valueOfDigits (Nat.toDigits 10 n) = n := by
  rw [valueOfDigits_eq, Nat.ofDigitChars_toDigits (by decide) (by decide)]

/-- Digits go on with the digits of a number that has begun. -/
theorem toDigits_append {ds : List Char} (hds : ∀ c ∈ ds, isDigit c = true) {n : ℕ} (hn : 0 < n) :
    Nat.toDigits 10 n ++ ds = Nat.toDigits 10 (Nat.ofDigitChars 10 ds n) := by
  induction ds generalizing n with
  | nil => exact List.append_nil _
  | cons c ds ih =>
    obtain ⟨hc, hds⟩ := List.forall_mem_cons.1 hds
    have hstep : Nat.toDigits 10 n ++ [c]
        = Nat.toDigits 10 (10 * n + (c.toNat - '0'.toNat)) := by
      rw [← toDigits_sub hc]
      exact Nat.toDigits_append_toDigits (by decide) hn (digitChar_sub hc).1
    calc Nat.toDigits 10 n ++ c :: ds
        = (Nat.toDigits 10 n ++ [c]) ++ ds := by simp
      _ = Nat.toDigits 10 (10 * n + (c.toNat - '0'.toNat)) ++ ds := by rw [hstep]
      _ = _ := ih hds (by omega)

/-- Digits without a leading zero are the digits of their value. -/
theorem toDigits_valueOfDigits {ds : List Char} (h : IsWhole ds) :
    Nat.toDigits 10 (valueOfDigits ds) = ds := by
  obtain ⟨⟨hne, hds⟩, hzero⟩ := h
  cases ds with
  | nil => exact absurd rfl hne
  | cons c ds =>
    obtain ⟨hc, hds⟩ := List.forall_mem_cons.1 hds
    by_cases hc₀ : c = '0'
    · rw [hzero (by rw [hc₀]; rfl)]
      rfl
    · have hpos : 0 < c.toNat - '0'.toNat := by
        have hne : c.toNat ≠ '0'.toNat := fun h => hc₀ (Char.toNat_inj.1 h)
        simp only [isDigit, Bool.and_eq_true, decide_eq_true_eq] at hc
        omega
      have happend := toDigits_append hds hpos
      rw [toDigits_sub hc] at happend
      rw [valueOfDigits_eq, Nat.ofDigitChars, List.foldl_cons, Nat.mul_zero, Nat.zero_add]
      exact happend.symm

/-- The digits of a number have no leading zero. -/
theorem isWhole_toDigits (n : ℕ) : IsWhole (Nat.toDigits 10 n) := by
  refine ⟨⟨Nat.toDigits_ne_nil, fun c => isDigit_of_mem_toDigits⟩, ?_⟩
  induction n using Nat.strongRecOn with
  | ind n ih =>
    intro hzero
    rcases Nat.lt_or_ge n 10 with hn | hn
    · rw [Nat.toDigits_of_lt_base hn] at hzero ⊢
      rw [Option.some.inj hzero]
    · rw [Nat.toDigits_of_base_le (by decide) hn, List.head?_append_of_ne_nil _ Nat.toDigits_ne_nil]
        at hzero
      -- a quotient written as zero is zero
      have hquot := congrArg valueOfDigits (ih (n / 10) (by omega) hzero)
      rw [valueOfDigits_toDigits] at hquot
      have hquot : n / 10 = 0 := hquot
      omega

theorem isNumber_toDigits (n : ℕ) : IsNumber (Nat.toDigits 10 n) :=
  ⟨[], _, [], [], by simp, .inl rfl, isWhole_toDigits n, .inl rfl, .inl rfl⟩

/-- A number with nothing but digits has neither sign nor fraction nor exponent. -/
theorem isWhole_of_isNumber {cs : List Char} (h : IsNumber cs)
    (hcs : ∀ c ∈ cs, isDigit c = true) : IsWhole cs := by
  obtain ⟨sign, whole, fraction, exponent, rfl, hsign, hwhole, hfraction, hexponent⟩ := h
  have hsign : sign = [] := by
    refine hsign.resolve_right ?_
    rintro rfl
    cases hcs '-' (by simp)
  have hfraction : fraction = [] := by
    refine hfraction.resolve_right ?_
    rintro ⟨digits, rfl, -⟩
    cases hcs '.' (by simp)
  have hexponent : exponent = [] := by
    refine hexponent.resolve_right ?_
    rintro ⟨e, esign, digits, rfl, rfl | rfl, -⟩
    · cases hcs 'e' (by simp)
    · cases hcs 'E' (by simp)
  rw [hsign, hfraction, hexponent, List.nil_append, List.append_nil, List.append_nil]
  exact hwhole

/-! ### Values -/

/-- A value of the grammar is read as a whole number if it is the number in decimal digits. -/
theorem whole?_eq_some_iff {v : Json} {cs : List Char} (hv : v.IsText cs) (n : UInt32) :
    v.whole? = some n ↔ v = .number (Nat.toDigits 10 n.toNat) := by
  constructor
  · intro h
    cases hv with
    | number hnumber =>
      rw [whole?] at h
      split_ifs at h with hif
      obtain rfl := Option.some.inj h
      obtain ⟨hdigits, hlt⟩ := Bool.and_eq_true_iff.1 hif
      have hwhole := isWhole_of_isNumber hnumber (List.all_eq_true.1 hdigits)
      have hvalue : (UInt32.ofNat (valueOfDigits cs)).toNat = valueOfDigits cs :=
        UInt32.toNat_ofNat_of_lt' (of_decide_eq_true hlt)
      rw [hvalue, toDigits_valueOfDigits hwhole]
    | _ => cases h
  · rintro rfl
    have hdigits : (Nat.toDigits 10 n.toNat).all isDigit = true :=
      List.all_eq_true.2 fun c => isDigit_of_mem_toDigits
    rw [whole?, hdigits, valueOfDigits_toDigits, Bool.true_and,
      if_pos (decide_eq_true n.toNat_lt), UInt32.ofNat_toNat]

theorem variantName?_eq_some_iff (v : Json) (s : String) : v.variantName? = some s ↔
    v = .string (some s) ∨ v = .object [(some s, .null)] := by
  constructor
  · intro h
    unfold variantName? at h
    split at h
    · exact .inl (congrArg Json.string h)
    · next key => exact .inr (by rw [show key = some s from h])
    · cases h
  · rintro (rfl | rfl) <;> rfl

/-- What has a name of its own is found by it. -/
theorem find?_name_eq_some_iff {α : Type*} {as : List α} {name : α → String}
    (hnodup : (as.map name).Nodup) (s : String) (a : α) :
    (as.find? fun a => name a = s) = some a ↔ a ∈ as ∧ name a = s := by
  constructor
  · intro h
    exact ⟨List.mem_of_find?_eq_some h, by simpa using List.find?_some h⟩
  · rintro ⟨ha, rfl⟩
    induction as with
    | nil => cases ha
    | cons b as ih =>
      rw [List.map_cons, List.nodup_cons] at hnodup
      rcases List.mem_cons.1 ha with rfl | ha
      · exact List.find?_cons_of_pos (by simp)
      · have hne : name b ≠ name a := fun h => hnodup.1 (h ▸ List.mem_map_of_mem ha)
        rw [List.find?_cons_of_neg (by simpa using hne)]
        exact ih hnodup.2 ha

theorem value?_choice_eq_some_iff {α : Type} {variants : List α} {name : α → String}
    (hnodup : (variants.map name).Nodup) (v : Json) (a : α) :
    value? (.choice variants name) v = some a ↔ a ∈ variants ∧
      (v = .string (some (name a)) ∨ v = .object [(some (name a), .null)]) := by
  rw [value?]
  show (v.variantName?.bind fun s => variants.find? fun a => name a = s) = some a ↔ _
  rw [Option.bind_eq_some_iff]
  constructor
  · rintro ⟨s, hs, ha⟩
    obtain ⟨hmem, rfl⟩ := (find?_name_eq_some_iff hnodup s a).1 ha
    exact ⟨hmem, (variantName?_eq_some_iff v _).1 hs⟩
  · rintro ⟨hmem, hv⟩
    exact ⟨name a, (variantName?_eq_some_iff v _).2 hv,
      (find?_name_eq_some_iff hnodup _ a).2 ⟨hmem, rfl⟩⟩

/-! ### Texts -/

/-- How a character is written spells its code point. -/
theorem spells_escape (c : Char) {cs : List Char} {ns : List ℕ} (h : Spells cs ns) :
    Spells (escape c ++ cs) (c.toNat :: ns) := by
  unfold escape
  split
  · exact .short rfl h
  · exact .short rfl h
  · exact .short rfl h
  · exact .short rfl h
  · exact .short rfl h
  · exact .short rfl h
  · exact .short rfl h
  · next hquote hescape _ _ _ _ _ =>
    split_ifs with hcontrol
    · have hdigits : ∀ n < 0x20,
          hexUnit? '0' '0' (Nat.digitChar (n / 16)) (Nat.digitChar (n % 16)) = some n := by
        decide
      exact .unit (hdigits _ hcontrol) h
    · exact .plain (fun hc => hquote hc) (fun hc => hescape hc) (not_lt.1 hcontrol) h

theorem spells_flatMap_escape (cs : List Char) :
    Spells (cs.flatMap escape) (cs.map Char.toNat) := by
  induction cs with
  | nil => exact .nil
  | cons c cs ih =>
    rw [List.flatMap_cons, List.map_cons]
    exact spells_escape c ih

theorem isString_escape (s : String) : IsString (some s) (s.toList.flatMap escape) :=
  (spells_flatMap_escape s.toList).isString

theorem isText_valueText {α : Type} (type : FieldType α) (a : α) :
    IsText (type.content a) (valueText type a) := by
  cases type with
  | bool =>
    cases a
    · exact .boolFalse
    · exact .boolTrue
  | whole => exact .number (isNumber_toDigits _)
  | choice variants name => exact .string (isString_escape _)

/-! ### Members -/

section Members

variable {R : Type} {rec : Record R} {f : RecordField R} {key : String} {v : Json}
  {members : List (Option String × Json)}

theorem find?_field (hf : f ∈ rec.fields) :
    (rec.fields.find? fun g => g.key = f.key) = some f :=
  (find?_name_eq_some_iff rec.nodup_keys _ f).2 ⟨hf, rfl⟩

theorem ofMembers?_unknown (hkey : ∀ f ∈ rec.fields, f.key ≠ key) :
    ofMembers? rec ((some key, v) :: members) = ofMembers? rec members := by
  have hnone : (rec.fields.find? fun f => f.key = key) = none :=
    List.find?_eq_none.2 (by simpa using hkey)
  rw [ofMembers?, hnone]

theorem ofMembers?_repeated (hf : f ∈ rec.fields) (hmem : ∃ m ∈ members, m.1 = some f.key) :
    ofMembers? rec ((some f.key, v) :: members) = none := by
  rw [ofMembers?, find?_field hf]
  exact if_pos (by simpa using hmem)

theorem ofMembers?_field (hf : f ∈ rec.fields) (honce : ∀ m ∈ members, m.1 ≠ some f.key) :
    ofMembers? rec ((some f.key, v) :: members)
      = (value? f.type v).bind fun a => (ofMembers? rec members).map fun r => f.set r a := by
  have hany : (members.any fun m => m.1 = some f.key) = false :=
    List.any_eq_false.2 fun m hm => by simpa using honce m hm
  rw [ofMembers?, find?_field hf]
  show (if (members.any fun m => m.1 = some f.key) = true then none
    else (value? f.type v).bind fun a =>
      (ofMembers? rec members).bind fun r => some (f.set r a)) = _
  rw [hany, if_neg Bool.false_ne_true]
  simp only [Option.map_eq_bind]
  rfl

theorem readRecord?_of_isDocument {text : String} (h : (object members).IsDocument text) :
    readRecord? rec text = ofMembers? rec members := by
  obtain ⟨before, cs, after, hbefore, htext, hafter, rfl⟩ := h
  unfold readRecord?
  -- an object is not followed by more of itself, so the reader stops where the grammar does
  rw [(read?_of_isText hbefore htext trivial).1 hafter]
  rfl

end Members

theorem isMember_text (key : String) {v : Json} {cs : List Char} (h : v.IsText cs) :
    IsMember (some key) v (quoted key ++ ':' :: cs) := by
  have hmember := IsMember.intro blanks_nil (isString_escape key) blanks_nil blanks_nil h blanks_nil
  rw [quoted]
  simpa only [List.nil_append, List.append_nil, List.cons_append, List.append_assoc] using hmember

/-- What is written are the members of a record. -/
theorem areMembers_membersText {R : Type} (r : R) : ∀ {fields : List (RecordField R)},
    fields ≠ [] → AreMembers (fields.map fun f => (some f.key, f.type.content (f.get r)))
      (membersText (fields.map fun f => (f.key, valueText f.type (f.get r))))
  | [f], _ => .last (isMember_text f.key (isText_valueText f.type _))
  | f :: g :: fields, _ => by
    have hmember := isMember_text f.key (isText_valueText f.type (f.get r))
    have hmembers := areMembers_membersText r (List.cons_ne_nil g fields)
    simpa only [List.map_cons, membersText, List.append_assoc, List.cons_append]
      using AreMembers.cons hmember hmembers

/-- **Records are read from JSON documents and written by the rules.** -/
theorem conforms_documents : documents.Conforms where
  value_bool {v _} _ b := by
    show value? .bool v = some b ↔ _
    cases v <;> simp [value?]
  value_whole hv n := whole?_eq_some_iff hv n
  value_choice {α variants name} hnodup {v cs} _ a := value?_choice_eq_some_iff hnodup v a
  read_empty rec _ h := readRecord?_of_isDocument h
  read_unknown rec _ _ _ _ _ h hrest hkey :=
    (readRecord?_of_isDocument h).trans
      ((ofMembers?_unknown hkey).trans (readRecord?_of_isDocument hrest).symm)
  read_field rec f v members text rest h hrest hf honce := by
    show readRecord? rec text = _
    rw [readRecord?_of_isDocument h, ofMembers?_field hf honce, ← readRecord?_of_isDocument hrest]
    rfl
  read_repeated rec _ _ _ _ h hf hmem :=
    (readRecord?_of_isDocument h).trans (ofMembers?_repeated hf hmem)
  read_textless rec _ _ _ h := readRecord?_of_isDocument h
  read_trailing {R} rec members before cs after hbefore htext hafter := by
    show readRecord? rec _ = none
    unfold readRecord?
    rw [(read?_of_isText hbefore htext trivial).2 hafter]
    rfl
  write_text {R} rec r := by
    show IsText _ (writeRecord rec r).toList
    unfold writeRecord Record.members
    rw [String.toList_ofList]
    cases hfields : rec.fields with
    | nil => exact .emptyObject blanks_nil
    | cons f fields => exact .object (areMembers_membersText r (List.cons_ne_nil f fields))

end ScriptSurface.Json
