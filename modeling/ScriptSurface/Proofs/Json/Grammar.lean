import Mathlib.Data.List.Basic
import ScriptSurface.Json

/-!
# The grammar of JSON documents

`Json.IsText v cs` says that `cs` is a text of the value `v`, without blanks around it.  It goes by
the rules of the grammar alone and does not know how texts are read.

What stands between the quotes of a string spells code points (`Json.Spells`): those of characters
and those of escapes, among which there may be halves of surrogate pairs.  Code points encode a text
(`Json.Encodes`) if each is that of a character, two halves that make a pair being those of one.  A
string that spells code points with a half on its own is in order, but stands for no text.

Numbers are kept as they are written and repeated keys stay repeated, so a value has all of its text
but the blanks and the way in which its strings are spelled.
-/

namespace ScriptSurface.Json

/-! ### Blanks -/

/-- The text has nothing but blanks in it. -/
def Blanks (cs : List Char) : Prop := ∀ c ∈ cs, isSpace c = true

instance : DecidablePred Blanks := fun cs =>
  decidable_of_iff (cs.all isSpace = true) List.all_eq_true

theorem blanks_nil : Blanks [] := nofun

/-! ### Strings -/

/-- The text spells the code points between the quotes of a string. -/
inductive Spells : List Char → List ℕ → Prop where
  /-- An empty string. -/
  | nil : Spells [] []
  /-- A character that stands for itself: no quote, no backslash and no control character. -/
  | plain {c : Char} {cs : List Char} {ns : List ℕ} (hquote : c ≠ '"') (hescape : c ≠ '\\')
    (hcontrol : 0x20 ≤ c.toNat) (h : Spells cs ns) : Spells (c :: cs) (c.toNat :: ns)
  /-- A backslash and a letter or sign. -/
  | short {e c : Char} {cs : List Char} {ns : List ℕ} (hc : shortEscape? e = some c)
    (h : Spells cs ns) : Spells ('\\' :: e :: cs) (c.toNat :: ns)
  /-- A backslash and the code unit in four hexadecimal digits. -/
  | unit {a b c d : Char} {n : ℕ} {cs : List Char} {ns : List ℕ} (hn : hexUnit? a b c d = some n)
    (h : Spells cs ns) : Spells ('\\' :: 'u' :: a :: b :: c :: d :: cs) (n :: ns)

/-- The code points encode the characters. -/
inductive Encodes : List ℕ → List Char → Prop where
  /-- No characters. -/
  | nil : Encodes [] []
  /-- A character by its code point. -/
  | char {c : Char} {ns : List ℕ} {cs : List Char} (h : Encodes ns cs) :
    Encodes (c.toNat :: ns) (c :: cs)
  /-- A character by the two halves of a surrogate pair. -/
  | pair {high low : ℕ} {c : Char} {ns : List ℕ} {cs : List Char}
    (hhigh : isHighSurrogate high = true) (hlow : isLowSurrogate low = true)
    (hc : c.toNat = 0x10000 + (high - 0xD800) * 0x400 + (low - 0xDC00)) (h : Encodes ns cs) :
    Encodes (high :: low :: ns) (c :: cs)

/-- What stands between the quotes of a string that stands for a text, or for none. -/
def IsString (text : Option String) (cs : List Char) : Prop :=
  ∃ ns, Spells cs ns ∧ ∀ t : String, text = some t ↔ Encodes ns t.toList

/-! ### Numbers -/

/-- At least one digit. -/
def IsDigits (cs : List Char) : Prop := cs ≠ [] ∧ ∀ c ∈ cs, isDigit c = true

/-- Digits without a leading zero. -/
def IsWhole (cs : List Char) : Prop := IsDigits cs ∧ (cs.head? = some '0' → cs = ['0'])

/-- A point with digits after it, or nothing. -/
def IsFraction (cs : List Char) : Prop := cs = [] ∨ ∃ digits, cs = '.' :: digits ∧ IsDigits digits

/-- An exponent, or nothing. -/
def IsExponent (cs : List Char) : Prop :=
  cs = [] ∨ ∃ e sign digits, cs = e :: (sign ++ digits) ∧ (e = 'e' ∨ e = 'E') ∧
    (sign = [] ∨ sign = ['+'] ∨ sign = ['-']) ∧ IsDigits digits

/-- A number. -/
def IsNumber (cs : List Char) : Prop :=
  ∃ sign whole fraction exponent, cs = sign ++ (whole ++ (fraction ++ exponent)) ∧
    (sign = [] ∨ sign = ['-']) ∧ IsWhole whole ∧ IsFraction fraction ∧ IsExponent exponent

/-! ### Values -/

mutual

/-- The text is one of the value. -/
inductive IsText : Json → List Char → Prop where
  /-- The word `null`. -/
  | null : IsText .null ['n', 'u', 'l', 'l']
  /-- The word `true`. -/
  | boolTrue : IsText (.bool true) ['t', 'r', 'u', 'e']
  /-- The word `false`. -/
  | boolFalse : IsText (.bool false) ['f', 'a', 'l', 's', 'e']
  /-- A number. -/
  | number {cs : List Char} (h : IsNumber cs) : IsText (.number cs) cs
  /-- A string in quotes. -/
  | string {text : Option String} {cs : List Char} (h : IsString text cs) :
    IsText (.string text) ('"' :: (cs ++ ['"']))
  /-- An array without items. -/
  | emptyArray {cs : List Char} (h : Blanks cs) : IsText (.array []) ('[' :: (cs ++ [']']))
  /-- An array with items. -/
  | array {items : List Json} {cs : List Char} (h : AreItems items cs) :
    IsText (.array items) ('[' :: (cs ++ [']']))
  /-- An object without members. -/
  | emptyObject {cs : List Char} (h : Blanks cs) :
    IsText (.object []) ('\x7b' :: (cs ++ ['\x7d']))
  /-- An object with members. -/
  | object {members : List (Option String × Json)} {cs : List Char} (h : AreMembers members cs) :
    IsText (.object members) ('\x7b' :: (cs ++ ['\x7d']))

/-- The text is one of items with commas between them, at least one, and blanks around each. -/
inductive AreItems : List Json → List Char → Prop where
  /-- One item. -/
  | last {v : Json} {before cs after : List Char} (hbefore : Blanks before) (h : IsText v cs)
    (hafter : Blanks after) : AreItems [v] (before ++ (cs ++ after))
  /-- An item and more items. -/
  | cons {v : Json} {vs : List Json} {before cs after rest : List Char} (hbefore : Blanks before)
    (h : IsText v cs) (hafter : Blanks after) (hrest : AreItems vs rest) :
    AreItems (v :: vs) (before ++ (cs ++ (after ++ ',' :: rest)))

/-- The text is one of members with commas between them, at least one. -/
inductive AreMembers : List (Option String × Json) → List Char → Prop where
  /-- One member. -/
  | last {key : Option String} {v : Json} {cs : List Char} (h : IsMember key v cs) :
    AreMembers [(key, v)] cs
  /-- A member and more members. -/
  | cons {key : Option String} {v : Json} {members : List (Option String × Json)}
    {cs rest : List Char} (h : IsMember key v cs) (hrest : AreMembers members rest) :
    AreMembers ((key, v) :: members) (cs ++ ',' :: rest)

/-- The text is one of a key and a value with a colon between them, and blanks around each. -/
inductive IsMember : Option String → Json → List Char → Prop where
  /-- A key and a value. -/
  | intro {key : Option String} {v : Json} {before ks between cs₁ cs after : List Char}
    (hbefore : Blanks before) (hkey : IsString key ks) (hbetween : Blanks between)
    (hcs₁ : Blanks cs₁) (hv : IsText v cs) (hafter : Blanks after) :
    IsMember key v (before ++ '"' :: (ks ++ '"' :: (between ++ ':' :: (cs₁ ++ (cs ++ after)))))

end

/-- The text is one of a document with the value: there are blanks around it at most. -/
def IsDocument (v : Json) (text : String) : Prop :=
  ∃ before cs after, Blanks before ∧ v.IsText cs ∧ Blanks after ∧
    text = String.ofList (before ++ (cs ++ after))

/-- The members of an object hold values of the grammar. -/
theorem AreMembers.exists_isText : ∀ {members : List (Option String × Json)} {cs : List Char},
    AreMembers members cs → ∀ m ∈ members, ∃ cs, m.2.IsText cs
  | _, _, .last (.intro _ _ _ _ hv _), m, hm => by
    rw [List.mem_singleton.1 hm]
    exact ⟨_, hv⟩
  | _, _, .cons (.intro _ _ _ _ hv _) hrest, m, hm => by
    rcases List.mem_cons.1 hm with rfl | hm
    · exact ⟨_, hv⟩
    · exact hrest.exists_isText m hm

/-- Without its first member an object still has a document. -/
theorem IsDocument.exists_rest {m : Option String × Json} {members : List (Option String × Json)}
    {text : String} (h : IsDocument (.object (m :: members)) text) :
    ∃ rest, IsDocument (.object members) rest := by
  obtain ⟨-, cs, -, -, htext, -, -⟩ := h
  have hrest : ∃ cs, IsText (.object members) cs := by
    cases htext with
    | object hmembers =>
      cases hmembers with
      | last => exact ⟨_, .emptyObject blanks_nil⟩
      | cons _ hrest => exact ⟨_, .object hrest⟩
  obtain ⟨cs, hcs⟩ := hrest
  exact ⟨_, [], cs, [], blanks_nil, hcs, blanks_nil, rfl⟩

theorem IsText.exists_isText_of_mem {members : List (Option String × Json)} {cs : List Char}
    (h : IsText (.object members) cs) : ∀ m ∈ members, ∃ cs, m.2.IsText cs := by
  cases h with
  | emptyObject => exact nofun
  | object h => exact h.exists_isText

theorem IsDocument.exists_isText_of_mem {members : List (Option String × Json)} {text : String}
    (h : IsDocument (.object members) text) : ∀ m ∈ members, ∃ cs, m.2.IsText cs := by
  obtain ⟨-, cs, -, -, htext, -, -⟩ := h
  exact htext.exists_isText_of_mem

end ScriptSurface.Json
