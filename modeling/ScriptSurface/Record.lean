import ScriptSurface.Json

/-!
# Records in documents

A `Record` is the declaration of a type whose values are read from documents and written into them:
what the value is when nothing is said, and the fields with their keys.  The types that fields have
are `FieldType`.

A `DocumentFormat` reads records as they are declared, and writes them.  How it does that is its own
affair.
-/

namespace ScriptSurface

/-- The types that fields of records have. -/
inductive FieldType : Type → Type 1 where
  /-- A truth value. -/
  | bool : FieldType Bool
  /-- A whole number of 32 bits. -/
  | whole : FieldType UInt32
  /-- One of several variants, each with a name. -/
  | choice {α : Type} (variants : List α) (name : α → String) : FieldType α

/-- A field of a record. -/
structure RecordField (R : Type) where
  /-- The key in documents. -/
  key : String
  /-- The values. -/
  {α : Type}
  /-- The type. -/
  type : FieldType α
  /-- The value in a record. -/
  get : R → α
  /-- The record with another value. -/
  set : R → α → R

/-- The declaration of a record. -/
structure Record (R : Type) where
  /-- The record when nothing is said. -/
  default : R
  /-- The fields. -/
  fields : List (RecordField R)
  /-- No two fields have the same key. -/
  nodup_keys : (fields.map RecordField.key).Nodup

/-- A way to read records from documents and to write them. -/
structure DocumentFormat where
  /-- What a part of a document says, read as a value of a type. -/
  value? : {α : Type} → FieldType α → Json → Option α
  /-- The record in the text of a document. -/
  read? : {R : Type} → Record R → String → Option R
  /-- The text of a document with the record. -/
  write : {R : Type} → Record R → R → String

end ScriptSurface
