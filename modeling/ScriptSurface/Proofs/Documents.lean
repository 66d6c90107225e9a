import ScriptSurface.Proofs.Json.Grammar
import ScriptSurface.Record

/-!
# What is expected of a document format

`DocumentFormat.Conforms` are the rules by which a format reads records from JSON documents and
writes them.  They are rules about any record and go member by member.

* A part of a document is read as a value of a type if it is written as one: truth values and whole
  numbers as such, and a variant as its name or as an object that holds null under the name.
* An object without members is the record by default.  A key of no field does not matter, whatever
  its value; a key of a field sets the field to what the value is read as, unless the field is given
  again; and a key that stands for no text is refused.
* Nothing but blanks may follow.
* A record is written as the object of all its fields.
-/

namespace ScriptSurface

/-- How a value of a type is written. -/
def FieldType.content {α : Type} : FieldType α → α → Json
  | .bool, b => .bool b
  | .whole, n => .number (Nat.toDigits 10 n.toNat)
  | .choice _ name, a => .string (some (name a))

/-- The members of the object that gives all fields of a record. -/
def Record.members {R : Type} (rec : Record R) (r : R) : List (Option String × Json) :=
  rec.fields.map fun f => (some f.key, f.type.content (f.get r))

/-- The rules by which a format reads records from JSON documents and writes them. -/
structure DocumentFormat.Conforms (F : DocumentFormat) : Prop where
  /-- A truth value is read as such. -/
  value_bool : ∀ {v : Json} {cs : List Char}, v.IsText cs →
    ∀ b, F.value? .bool v = some b ↔ v = .bool b
  /-- A whole number is read from its decimal digits. -/
  value_whole : ∀ {v : Json} {cs : List Char}, v.IsText cs →
    ∀ n, F.value? .whole v = some n ↔ v = .number (Nat.toDigits 10 n.toNat)
  /-- A variant is read from its name, or from an object that holds null under the name. -/
  value_choice : ∀ {α : Type} {variants : List α} {name : α → String},
    (variants.map name).Nodup → ∀ {v : Json} {cs : List Char}, v.IsText cs →
    ∀ a, F.value? (.choice variants name) v = some a ↔ a ∈ variants ∧
      (v = .string (some (name a)) ∨ v = .object [(some (name a), .null)])
  /-- When nothing is said, the record is that by default. -/
  read_empty : ∀ {R : Type} (rec : Record R) {text : String},
    (Json.object []).IsDocument text → F.read? rec text = some rec.default
  /-- A key of no field does not matter. -/
  read_unknown : ∀ {R : Type} (rec : Record R) {key : String} {v : Json}
    {members : List (Option String × Json)} {text rest : String},
    (Json.object ((some key, v) :: members)).IsDocument text →
    (Json.object members).IsDocument rest → (∀ f ∈ rec.fields, f.key ≠ key) →
    F.read? rec text = F.read? rec rest
  /-- A field is set to what its value is read as. -/
  read_field : ∀ {R : Type} (rec : Record R) {f : RecordField R} {v : Json}
    {members : List (Option String × Json)} {text rest : String},
    (Json.object ((some f.key, v) :: members)).IsDocument text →
    (Json.object members).IsDocument rest → f ∈ rec.fields →
    (∀ m ∈ members, m.1 ≠ some f.key) →
    F.read? rec text = (F.value? f.type v).bind fun a => (F.read? rec rest).map fun r => f.set r a
  /-- A field must not be given again. -/
  read_repeated : ∀ {R : Type} (rec : Record R) {f : RecordField R} {v : Json}
    {members : List (Option String × Json)} {text : String},
    (Json.object ((some f.key, v) :: members)).IsDocument text → f ∈ rec.fields →
    (∃ m ∈ members, m.1 = some f.key) → F.read? rec text = none
  /-- Strings are read as texts, so a key must stand for one. -/
  read_textless : ∀ {R : Type} (rec : Record R) {v : Json}
    {members : List (Option String × Json)} {text : String},
    (Json.object ((none, v) :: members)).IsDocument text → F.read? rec text = none
  /-- Nothing but blanks may follow an object. -/
  read_trailing : ∀ {R : Type} (rec : Record R) {members : List (Option String × Json)}
    {before cs after : List Char}, Json.Blanks before → Json.IsText (.object members) cs →
    ¬Json.Blanks after → F.read? rec (String.ofList (before ++ (cs ++ after))) = none
  /-- What is written is the object that gives all fields. -/
  write_text : ∀ {R : Type} (rec : Record R) (r : R),
    Json.IsText (.object (rec.members r)) (F.write rec r).toList

end ScriptSurface
