/-!
# JSON documents

`Json` is the content of a JSON document and `Json.read?` reads one from its text, with nothing but
blanks around it.  Blanks are the space, the tab, the line feed and the carriage return.

Reading is as strict as the grammar and no stricter.  In particular a string may hold an escape that
is only one half of a surrogate pair: the document is well formed, but the string stands for no
text, and is read as `none`.  Numbers are kept as written, and a repeated key stays repeated.
-/

namespace ScriptSurface

/-- The content of a JSON document. -/
inductive Json where
  /-- Null. -/
  | null
  /-- A truth value. -/
  | bool (b : Bool)
  /-- A number as it is written. -/
  | number (digits : List Char)
  /-- A string; `none` if it stands for no text. -/
  | string (text : Option String)
  /-- An array. -/
  | array (items : List Json)
  /-- An object with its keys in the order of the document. -/
  | object (members : List (Option String × Json))
deriving Inhabited

namespace Json

/-! ### Characters -/

/-- Whether a character may stand between the parts of a document. -/
def isSpace (c : Char) : Bool := c = ' ' || c = '\t' || c = '\n' || c = '\r'

/-- The text after the blanks in front of it. -/
def skipSpace (cs : List Char) : List Char := cs.dropWhile isSpace

/-- Whether a character is a decimal digit. -/
def isDigit (c : Char) : Bool := '0'.toNat ≤ c.toNat && c.toNat ≤ '9'.toNat

/-- The value of a hexadecimal digit. -/
def hexDigit? (c : Char) : Option Nat :=
  if isDigit c then some (c.toNat - '0'.toNat)
  else if 'a'.toNat ≤ c.toNat && c.toNat ≤ 'f'.toNat then some (c.toNat - 'a'.toNat + 10)
  else if 'A'.toNat ≤ c.toNat && c.toNat ≤ 'F'.toNat then some (c.toNat - 'A'.toNat + 10)
  else none

/-- The value of four hexadecimal digits. -/
def hexUnit? (a b c d : Char) : Option Nat := do
  return (((← hexDigit? a) * 16 + (← hexDigit? b)) * 16 + (← hexDigit? c)) * 16 + (← hexDigit? d)

/-- The character that a short escape stands for. -/
def shortEscape? : Char → Option Char
  | '"' => some '"'
  | '\\' => some '\\'
  | '/' => some '/'
  | 'b' => some '\x08'
  | 'f' => some '\x0c'
  | 'n' => some '\n'
  | 'r' => some '\r'
  | 't' => some '\t'
  | _ => none

/-! ### Strings -/

/-- Whether a code unit opens a surrogate pair. -/
def isHighSurrogate (n : Nat) : Bool := 0xD800 ≤ n && n < 0xDC00

/-- Whether a code unit closes a surrogate pair. -/
def isLowSurrogate (n : Nat) : Bool := 0xDC00 ≤ n && n < 0xE000

/-- The code points of a string after its opening quote, up to the closing one, and what follows.
An escaped half of a surrogate pair counts as a code point of its own here. -/
def scanString : List Char → Option (List Nat × List Char)
  | [] => none
  | '"' :: rest => some ([], rest)
  | '\\' :: 'u' :: a :: b :: c :: d :: rest => do
    let n ← hexUnit? a b c d
    let (ns, rest) ← scanString rest
    return (n :: ns, rest)
  | '\\' :: e :: rest => do
    let c ← shortEscape? e
    let (ns, rest) ← scanString rest
    return (c.toNat :: ns, rest)
  | c :: rest =>
    if c.toNat < 0x20 then none
    else do
      let (ns, rest) ← scanString rest
      return (c.toNat :: ns, rest)

/-- The text of code points in which surrogate pairs are joined; halves on their own have none. -/
def joinSurrogates : List Nat → Option (List Char)
  | [] => some []
  | [n] => if isHighSurrogate n || isLowSurrogate n then none else some [Char.ofNat n]
  | n :: m :: rest =>
    if isHighSurrogate n && isLowSurrogate m then
      (joinSurrogates rest).map
        (Char.ofNat (0x10000 + (n - 0xD800) * 0x400 + (m - 0xDC00)) :: ·)
    else if isHighSurrogate n || isLowSurrogate n then none
    else (joinSurrogates (m :: rest)).map (Char.ofNat n :: ·)

/-- A string after its opening quote, and what follows. -/
def readString? (cs : List Char) : Option (Option String × List Char) := do
  let (ns, rest) ← scanString cs
  return ((joinSurrogates ns).map String.ofList, rest)

/-! ### Numbers -/

/-- At least one digit, as many as there are, and what follows. -/
def readDigits? (cs : List Char) : Option (List Char × List Char) :=
  let digits := cs.takeWhile isDigit
  if digits.isEmpty then none else some (digits, cs.dropWhile isDigit)

/-- The digits before any point: no digit follows a leading zero. -/
def readWhole? (cs : List Char) : Option (List Char × List Char) := do
  let (digits, rest) ← readDigits? cs
  if digits.head? = some '0' && digits.length ≠ 1 then none else some (digits, rest)

/-- A point with digits after it, if there is one. -/
def readFraction? : List Char → Option (List Char × List Char)
  | '.' :: rest => do
    let (digits, rest) ← readDigits? rest
    return ('.' :: digits, rest)
  | cs => some ([], cs)

/-- The digits of an exponent with the sign in front of them, if there is one. -/
def readSignedDigits? : List Char → Option (List Char × List Char)
  | '+' :: rest => do
    let (digits, rest) ← readDigits? rest
    return ('+' :: digits, rest)
  | '-' :: rest => do
    let (digits, rest) ← readDigits? rest
    return ('-' :: digits, rest)
  | cs => readDigits? cs

/-- An exponent, if there is one. -/
def readExponent? : List Char → Option (List Char × List Char)
  | 'e' :: rest => do
    let (digits, rest) ← readSignedDigits? rest
    return ('e' :: digits, rest)
  | 'E' :: rest => do
    let (digits, rest) ← readSignedDigits? rest
    return ('E' :: digits, rest)
  | cs => some ([], cs)

/-- A number without a sign. -/
def readUnsigned? (cs : List Char) : Option (List Char × List Char) := do
  let (whole, rest) ← readWhole? cs
  let (fraction, rest) ← readFraction? rest
  let (exponent, rest) ← readExponent? rest
  return (whole ++ fraction ++ exponent, rest)

/-- A number, and what follows. -/
def readNumber? : List Char → Option (List Char × List Char)
  | '-' :: rest => do
    let (digits, rest) ← readUnsigned? rest
    return ('-' :: digits, rest)
  | cs => readUnsigned? cs

/-! ### Documents -/

mutual

/-- A value with blanks before it, and what follows, nested no deeper than the fuel allows. -/
def readValue? : Nat → List Char → Option (Json × List Char)
  | 0, _ => none
  | fuel + 1, cs =>
    match skipSpace cs with
    | 'n' :: 'u' :: 'l' :: 'l' :: rest => some (null, rest)
    | 't' :: 'r' :: 'u' :: 'e' :: rest => some (bool true, rest)
    | 'f' :: 'a' :: 'l' :: 's' :: 'e' :: rest => some (bool false, rest)
    | '"' :: rest => do
      let (text, rest) ← readString? rest
      return (string text, rest)
    | '[' :: rest =>
      match skipSpace rest with
      | ']' :: rest => some (array [], rest)
      | rest => do
        let (items, rest) ← readItems? fuel rest
        return (array items, rest)
    | '\x7b' :: rest =>
      match skipSpace rest with
      | '\x7d' :: rest => some (object [], rest)
      | rest => do
        let (members, rest) ← readMembers? fuel rest
        return (object members, rest)
    | cs => do
      let (digits, rest) ← readNumber? cs
      return (number digits, rest)

/-- The items of an array from one of them on, and what follows the closing bracket. -/
def readItems? : Nat → List Char → Option (List Json × List Char)
  | 0, _ => none
  | fuel + 1, cs => do
    let (item, rest) ← readValue? fuel cs
    match skipSpace rest with
    | ',' :: rest =>
      let (items, rest) ← readItems? fuel rest
      return (item :: items, rest)
    | ']' :: rest => return ([item], rest)
    | _ => none

/-- The members of an object from one of them on, and what follows the closing brace. -/
def readMembers? : Nat → List Char → Option (List (Option String × Json) × List Char)
  | 0, _ => none
  | fuel + 1, cs =>
    match skipSpace cs with
    | '"' :: rest => do
      let (key, rest) ← readString? rest
      match skipSpace rest with
      | ':' :: rest =>
        let (value, rest) ← readValue? fuel rest
        match skipSpace rest with
        | ',' :: rest =>
          let (members, rest) ← readMembers? fuel rest
          return ((key, value) :: members, rest)
        | '\x7d' :: rest => return ([(key, value)], rest)
        | _ => none
      | _ => none
    | _ => none

end

/-- The content of a document.  Each opening bracket and each comma takes two steps of reading at
most, so twice as many steps as there are characters are enough. -/
def read? (text : String) : Option Json := do
  let cs := text.toList
  let (json, rest) ← readValue? (2 * cs.length + 2) cs
  if (skipSpace rest).isEmpty then some json else none

end Json

end ScriptSurface
