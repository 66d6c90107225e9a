import ScriptSurface.Record

/-!
# Records in JSON documents

`Json.documents` reads a record from a JSON object that gives any of the fields under their keys;
what it does not give is as the declaration of the record has it.  Other keys are ignored with
whatever they hold, but a field must not be given twice, and every key must stand for a text.  An
array gives the fields by position instead, and may end early.  A variant is its name, or an object
that holds null under the name.

Records are written as an object that gives all of the fields, without blanks.
-/

namespace ScriptSurface.Json

/-! ### Reading -/

/-- The value of decimal digits. -/
def valueOfDigits (digits : List Char) : Nat :=
  digits.foldl (fun n c => n * 10 + (c.toNat - '0'.toNat)) 0

/-- A whole number of 32 bits, written with digits only. -/
def whole? : Json → Option UInt32
  | .number digits =>
    if digits.all isDigit && valueOfDigits digits < 0x100000000 then
      some (UInt32.ofNat (valueOfDigits digits))
    else none
  | _ => none

/-- The name of a variant. -/
def variantName? : Json → Option String
  | .string text => text
  | .object [(key, .null)] => key
  | _ => none

/-- What a part of a document says, read as a value of a type. -/
def value? {α : Type} : FieldType α → Json → Option α
  | .bool, .bool b => some b
  | .bool, _ => none
  | .whole, v => v.whole?
  | .choice variants name, v => do
    let s ← v.variantName?
    variants.find? fun a => name a = s

/-- The record given by the members of an object. -/
def ofMembers? {R : Type} (rec : Record R) : List (Option String × Json) → Option R
  | [] => some rec.default
  | (none, _) :: _ => none
  | (some key, v) :: members =>
    match rec.fields.find? fun f => f.key = key with
    | some f =>
      if members.any fun m => m.1 = some key then none
      else do
        let a ← value? f.type v
        let r ← ofMembers? rec members
        return f.set r a
    | none => ofMembers? rec members

/-- The record given by the items of an array. -/
def ofItems? {R : Type} (rec : Record R) (items : List Json) : Option R :=
  if items.length ≤ rec.fields.length then
    (rec.fields.zip items).foldlM (fun r x => (value? x.1.type x.2).map (x.1.set r)) rec.default
  else none

/-- The record given by the text of a document. -/
def readRecord? {R : Type} (rec : Record R) (text : String) : Option R := do
  match ← read? text with
  | .object members => ofMembers? rec members
  | .array items => ofItems? rec items
  | _ => none

/-! ### Writing -/

/-- How a character is written in a string. -/
def escape : Char → List Char
  | '"' => ['\\', '"']
  | '\\' => ['\\', '\\']
  | '\x08' => ['\\', 'b']
  | '\x0c' => ['\\', 'f']
  | '\n' => ['\\', 'n']
  | '\r' => ['\\', 'r']
  | '\t' => ['\\', 't']
  | c =>
    if c.toNat < 0x20 then
      ['\\', 'u', '0', '0', Nat.digitChar (c.toNat / 16), Nat.digitChar (c.toNat % 16)]
    else [c]

/-- A text in quotes. -/
def quoted (s : String) : List Char := '"' :: (s.toList.flatMap escape ++ ['"'])

/-- How a value of a type is written. -/
def valueText {α : Type} : FieldType α → α → List Char
  | .bool, b => if b then ['t', 'r', 'u', 'e'] else ['f', 'a', 'l', 's', 'e']
  | .whole, n => Nat.toDigits 10 n.toNat
  | .choice _ name, a => quoted (name a)

/-- The text of members with commas between them. -/
def membersText : List (String × List Char) → List Char
  | [] => []
  | [m] => quoted m.1 ++ ':' :: m.2
  | m :: n :: members => quoted m.1 ++ ':' :: (m.2 ++ ',' :: membersText (n :: members))

/-- The text of a document with the record. -/
def writeRecord {R : Type} (rec : Record R) (r : R) : String :=
  .ofList ('\x7b' :: (membersText
    (rec.fields.map fun f => (f.key, valueText f.type (f.get r))) ++ ['\x7d']))

/-- Records in JSON documents. -/
def documents : DocumentFormat := ⟨value?, readRecord?, writeRecord⟩

end ScriptSurface.Json
