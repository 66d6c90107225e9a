/-!
# Tables that remember their order

`Assoc κ ν` is a finite table with distinct keys, kept as the list of its entries in the order in
which the keys first came in.  Putting a value under a known key replaces it where it stands; a new
key goes to the end.  Overload sets, member tables, caches and the registry itself are such tables,
and the order is part of what they mean: overloads are tried in it.

The view of a table is `find?` together with `keys`; `find?_put` and `keys_put` say what a put does
to it.
-/

namespace ScriptSurface

/-- A table with distinct keys, in order of first insertion. -/
structure Assoc (κ ν : Type) where
  /-- The entries, oldest key first. -/
  toList : List (κ × ν)
  /-- No key occurs twice. -/
  nodup_keys : (toList.map Prod.fst).Nodup

namespace Assoc

variable {κ ν : Type}

/-- The table without entries. -/
def empty : Assoc κ ν := ⟨[], List.nodup_nil⟩

instance : EmptyCollection (Assoc κ ν) := ⟨empty⟩

instance : Inhabited (Assoc κ ν) := ⟨empty⟩

/-- The keys in order of first insertion. -/
def keys (t : Assoc κ ν) : List κ := t.toList.map Prod.fst

/-- The values in the order of their keys. -/
def values (t : Assoc κ ν) : List ν := t.toList.map Prod.snd

/-- The number of keys. -/
def size (t : Assoc κ ν) : Nat := t.toList.length

/-- Whether the table has no entry. -/
def isEmpty (t : Assoc κ ν) : Bool := t.toList.isEmpty

@[simp] theorem keys_empty : (∅ : Assoc κ ν).keys = [] := rfl

theorem size_eq_length_keys (t : Assoc κ ν) : t.size = t.keys.length := by simp [size, keys]

theorem ext {s t : Assoc κ ν} (h : s.toList = t.toList) : s = t := by
  cases s; cases t; cases h; rfl

section
variable [DecidableEq κ]

/-! ### Entry lists -/

/-- The value of the first entry under `k`. -/
def valueIn? (k : κ) : List (κ × ν) → Option ν
  | [] => none
  | e :: rest => if e.1 = k then some e.2 else valueIn? k rest

/-- Replaces the value of the first entry under `k`, or adds an entry at the end. -/
def putEntry (k : κ) (v : ν) : List (κ × ν) → List (κ × ν)
  | [] => [(k, v)]
  | e :: rest => if e.1 = k then (k, v) :: rest else e :: putEntry k v rest

theorem map_fst_putEntry (k : κ) (v : ν) (es : List (κ × ν)) :
    (putEntry k v es).map Prod.fst
      = if k ∈ es.map Prod.fst then es.map Prod.fst else es.map Prod.fst ++ [k] := by
  induction es with
  | nil => simp [putEntry]
  | cons e rest ih =>
    by_cases h : e.1 = k
    · simp [putEntry, h]
    · have h' : ¬k = e.1 := fun heq => h heq.symm
      simp only [putEntry, h, if_false, List.map_cons, ih, List.mem_cons, h', false_or]
      split <;> simp

theorem nodup_putEntry (k : κ) (v : ν) {es : List (κ × ν)} (h : (es.map Prod.fst).Nodup) :
    ((putEntry k v es).map Prod.fst).Nodup := by
  rw [map_fst_putEntry]
  split
  · exact h
  · next hk =>
    rw [List.nodup_append]
    exact ⟨h, by simp, fun a ha b hb hab => hk (by simp at hb; exact hb ▸ hab ▸ ha)⟩

theorem valueIn?_putEntry (k j : κ) (v : ν) (es : List (κ × ν)) :
    valueIn? j (putEntry k v es) = if k = j then some v else valueIn? j es := by
  induction es with
  | nil => simp [putEntry, valueIn?]
  | cons e rest ih =>
    by_cases h : e.1 = k
    · by_cases hkj : k = j <;> simp [putEntry, valueIn?, h, hkj]
    · by_cases hj : e.1 = j
      · have hkj : ¬k = j := fun heq => h (hj.trans heq.symm)
        have hjk : ¬j = k := fun heq => hkj heq.symm
        simp [putEntry, valueIn?, hj, hkj, hjk]
      · simp [putEntry, valueIn?, h, hj, ih]

theorem valueIn?_isSome (k : κ) (es : List (κ × ν)) :
    (valueIn? k es).isSome = true ↔ k ∈ es.map Prod.fst := by
  induction es with
  | nil => simp [valueIn?]
  | cons e rest ih =>
    by_cases h : e.1 = k
    · simp [valueIn?, h]
    · have h' : ¬k = e.1 := fun heq => h heq.symm
      simp only [valueIn?, h, if_false, ih, List.map_cons, List.mem_cons, h', false_or]

/-! ### Tables -/

/-- The value under a key. -/
def find? (t : Assoc κ ν) (k : κ) : Option ν := valueIn? k t.toList

/-- Whether there is a value under a key. -/
def contains (t : Assoc κ ν) (k : κ) : Bool := (t.find? k).isSome

/-- Puts a value under a key: in place of the value there, else at the end. -/
def put (t : Assoc κ ν) (k : κ) (v : ν) : Assoc κ ν :=
  ⟨putEntry k v t.toList, nodup_putEntry k v t.nodup_keys⟩

/-- Puts a value under a key that has none; a value already there stays. -/
def putNew (t : Assoc κ ν) (k : κ) (v : ν) : Assoc κ ν :=
  if t.contains k then t else t.put k v

/-- Puts under a key what a function makes of the value there, if there is one. -/
def alter (t : Assoc κ ν) (k : κ) (f : Option ν → ν) : Assoc κ ν := t.put k (f (t.find? k))

/-- The table of a list of entries; the last entry of a key wins, its first one gives the place. -/
def ofList (es : List (κ × ν)) : Assoc κ ν := es.foldl (fun t e => t.put e.1 e.2) ∅

@[simp] theorem find?_empty (k : κ) : (∅ : Assoc κ ν).find? k = none := rfl

theorem find?_put (t : Assoc κ ν) (k j : κ) (v : ν) :
    (t.put k v).find? j = if k = j then some v else t.find? j :=
  valueIn?_putEntry k j v t.toList

theorem keys_put (t : Assoc κ ν) (k : κ) (v : ν) :
    (t.put k v).keys = if k ∈ t.keys then t.keys else t.keys ++ [k] :=
  map_fst_putEntry k v t.toList

theorem contains_iff (t : Assoc κ ν) (k : κ) : t.contains k = true ↔ k ∈ t.keys :=
  valueIn?_isSome k t.toList

theorem find?_putNew (t : Assoc κ ν) (k j : κ) (v : ν) :
    (t.putNew k v).find? j = if k = j then some ((t.find? k).getD v) else t.find? j := by
  unfold putNew contains
  cases hf : t.find? k with
  | none => simp [find?_put]
  | some w =>
    by_cases hkj : k = j
    · subst hkj; simp [hf]
    · simp [hkj]

end

end Assoc

end ScriptSurface
