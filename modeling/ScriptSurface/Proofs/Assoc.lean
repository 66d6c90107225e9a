import Mathlib.Data.List.Basic
import Mathlib.Data.List.Nodup
import ScriptSurface.Assoc

/-!
# Tables filled entry by entry

Member tables and mappings are filled by going through the entries of another table and altering the
value under the key of each.  `Assoc.find?_foldl_alter` and `Assoc.keys_foldl_alter` say what such a
pass makes of the values and of the order of the keys.  The order is that of first appearance, which
is `List.eraseDups`: the first part of this module is about lists rid of repeats.  Where an entry is
put down whatever is there, the last one of a key counts (`Assoc.find?_ofList`).

A table is known by its keys in order and its values (`Assoc.ext_find?`), and its values do not
depend on the order of its entries (`Assoc.find?_eq_of_perm`).  A cache is a table whose values are
what a function makes of their keys (`Assoc.Keeps`).
-/

namespace ScriptSurface

/-! ### Last entries -/

theorem find?_reverse_append_singleton {α : Type} (p : α → Bool) (l : List α) (a : α) :
    (l ++ [a]).reverse.find? p = if p a then some a else l.reverse.find? p := by
  rw [List.reverse_append, List.reverse_singleton, List.singleton_append, List.find?_cons]
  cases p a <;> rfl

/-! ### First appearances -/

section FirstAppearance

variable {α β : Type} [DecidableEq α]

/-- Induction on a list whose tail is taken without the repeats of its head. -/
@[elab_as_elim]
theorem firstAppearance_induction {P : List α → Prop} (nil : P [])
    (cons : ∀ a l, P (l.filter fun b => !b == a) → P (a :: l)) : ∀ l : List α, P l
  | [] => nil
  | a :: l => cons a l (firstAppearance_induction nil cons _)
  termination_by l => l.length
  decreasing_by exact Nat.lt_succ_of_le (List.length_filter_le _ _)

theorem nodup_eraseDups (l : List α) : l.eraseDups.Nodup := by
  induction l using firstAppearance_induction with
  | nil => simp
  | cons a l ih =>
    rw [List.eraseDups_cons, List.nodup_cons]
    exact ⟨by simp [List.mem_eraseDups], ih⟩

theorem eraseDups_of_nodup {l : List α} (h : l.Nodup) : l.eraseDups = l := by
  induction l with
  | nil => rfl
  | cons a l ih =>
    obtain ⟨ha, hl⟩ := List.nodup_cons.1 h
    have hfilter : (l.filter fun b => !b == a) = l := by
      refine List.filter_eq_self.2 fun b hb => ?_
      have : b ≠ a := fun h => ha (h ▸ hb)
      simpa using this
    rw [List.eraseDups_cons, hfilter, ih hl]

theorem eraseDups_eraseDups_append (l m : List α) :
    (l.eraseDups ++ m).eraseDups = (l ++ m).eraseDups := by
  have hremove : m.removeAll l.eraseDups = m.removeAll l :=
    List.filter_congr fun b _ => by simp [List.mem_eraseDups]
  rw [List.eraseDups_append, List.eraseDups_append, hremove,
    eraseDups_of_nodup (nodup_eraseDups l)]

theorem eraseDups_filter (p : α → Bool) (l : List α) :
    (l.filter p).eraseDups = l.eraseDups.filter p := by
  induction l using firstAppearance_induction with
  | nil => rfl
  | cons a l ih =>
    rw [List.eraseDups_cons, List.filter_cons, List.filter_cons, ← ih]
    split_ifs with ha
    · rw [List.eraseDups_cons, List.filter_comm]
    · congr 1
      rw [List.filter_filter]
      refine List.filter_congr fun b _ => ?_
      by_cases hb : b = a
      · simp [hb, ha]
      · simp [hb]

/-- What follows a list counts only by its own first appearances. -/
theorem eraseDups_append_congr (l : List α) {m m' : List α} (h : m.eraseDups = m'.eraseDups) :
    (l ++ m).eraseDups = (l ++ m').eraseDups := by
  rw [List.eraseDups_append, List.eraseDups_append, List.removeAll, List.removeAll,
    eraseDups_filter, eraseDups_filter, h]

theorem filter_flatMap_filter_ne (f : α → List β) {q : β → Bool} {a : α}
    (ha : (f a).filter q = []) (l : List α) :
    ((l.filter fun b => !b == a).flatMap f).filter q = (l.flatMap f).filter q := by
  induction l with
  | nil => rfl
  | cons b l ih =>
    rw [List.flatMap_cons, List.filter_append]
    by_cases hb : b = a
    · rw [List.filter_cons_of_neg (by simp [hb]), ih, hb, ha, List.nil_append]
    · rw [List.filter_cons_of_pos (by simp [hb]), List.flatMap_cons, List.filter_append, ih]

/-- First appearances along a list are those along its first appearances. -/
theorem eraseDups_flatMap_eraseDups [DecidableEq β] (f : α → List β) (l : List α) :
    (l.eraseDups.flatMap f).eraseDups = (l.flatMap f).eraseDups := by
  induction l using firstAppearance_induction with
  | nil => rfl
  | cons a l ih =>
    have hremove : ((l.filter fun b => !b == a).flatMap f).removeAll (f a)
        = (l.flatMap f).removeAll (f a) :=
      filter_flatMap_filter_ne f (List.filter_eq_nil_iff.2 fun b hb => by simpa using hb) l
    rw [List.eraseDups_cons, List.flatMap_cons, List.flatMap_cons, eraseDups_append_congr _ ih,
      List.eraseDups_append, List.eraseDups_append, hremove]

theorem findSome?_eraseDups (f : α → Option β) (l : List α) :
    l.eraseDups.findSome? f = l.findSome? f := by
  induction l using firstAppearance_induction with
  | nil => rfl
  | cons a l ih =>
    rw [List.eraseDups_cons, List.findSome?_cons, List.findSome?_cons, ih]
    split
    · rfl
    · next ha =>
      -- what is dropped of the tail are repeats of `a`, of which `f` makes nothing
      clear ih
      induction l with
      | nil => rfl
      | cons b l ih =>
        by_cases hb : b = a
        · simp [hb, ha, ih]
        · simp [hb, List.findSome?_cons, ih]

end FirstAppearance

namespace Assoc

variable {κ ν μ : Type} [DecidableEq κ]

/-! ### Tables by their values -/

theorem mem_iff_valueIn?_eq {es : List (κ × ν)} (h : (es.map Prod.fst).Nodup) {k : κ} {v : ν} :
    (k, v) ∈ es ↔ valueIn? k es = some v := by
  induction es with
  | nil => simp [valueIn?]
  | cons e es ih =>
    obtain ⟨he, hes⟩ := List.nodup_cons.1 (List.map_cons ▸ h)
    by_cases hk : e.1 = k
    · have hne : (k, v) ∉ es := fun hmem => he (hk ▸ List.mem_map_of_mem hmem)
      simp [valueIn?, hk, hne, Prod.ext_iff, eq_comm]
    · have hne : (k, v) ≠ e := fun h => hk (h ▸ rfl)
      simp [valueIn?, hk, hne, ih hes]

theorem mem_toList_iff (t : Assoc κ ν) {k : κ} {v : ν} :
    (k, v) ∈ t.toList ↔ t.find? k = some v :=
  mem_iff_valueIn?_eq t.nodup_keys

omit [DecidableEq κ] in
theorem keys_nodup (t : Assoc κ ν) : t.keys.Nodup := t.nodup_keys

theorem isSome_find?_iff (t : Assoc κ ν) (k : κ) : (t.find? k).isSome ↔ k ∈ t.keys :=
  t.contains_iff k

theorem mem_keys_of_find? {t : Assoc κ ν} {k : κ} {v : ν} (h : t.find? k = some v) :
    k ∈ t.keys :=
  (t.isSome_find?_iff k).1 (by rw [h]; rfl)

theorem find?_eq_none_of_notMem {t : Assoc κ ν} {k : κ} (h : k ∉ t.keys) : t.find? k = none :=
  Option.not_isSome_iff_eq_none.1 ((t.isSome_find?_iff k).not.2 h)

theorem exists_find?_of_mem_keys {t : Assoc κ ν} {k : κ} (h : k ∈ t.keys) :
    ∃ v, t.find? k = some v :=
  Option.isSome_iff_exists.1 ((t.isSome_find?_iff k).2 h)

/-- A search of the values that can tell which one is under a key finds that one. -/
theorem find?_values {t : Assoc κ ν} {k : κ} {p : ν → Bool}
    (h : ∀ e ∈ t.toList, p e.2 = true ↔ e.1 = k) : t.values.find? p = t.find? k := by
  have hes : ∀ es : List (κ × ν), (∀ e ∈ es, p e.2 = true ↔ e.1 = k) →
      (es.map Prod.snd).find? p = valueIn? k es := by
    intro es hes
    induction es with
    | nil => rfl
    | cons e es ih =>
      obtain ⟨he, hrest⟩ := List.forall_mem_cons.1 hes
      rw [List.map_cons, List.find?_cons, valueIn?, ih hrest]
      by_cases hk : e.1 = k
      · rw [he.2 hk, if_pos hk]
      · rw [Bool.eq_false_iff.2 fun hp => hk (he.1 hp), if_neg hk]
  exact hes t.toList h

/-- The values of a table do not depend on the order of its entries. -/
theorem find?_eq_of_perm {s t : Assoc κ ν} (h : s.toList.Perm t.toList) (k : κ) :
    s.find? k = t.find? k := by
  refine Option.ext fun v => ?_
  rw [← mem_toList_iff, ← mem_toList_iff]
  exact h.mem_iff

theorem toList_eq_of_valueIn?_eq {es fs : List (κ × ν)} (h : (es.map Prod.fst).Nodup)
    (hk : es.map Prod.fst = fs.map Prod.fst) (hv : ∀ k, valueIn? k es = valueIn? k fs) :
    es = fs := by
  induction es generalizing fs with
  | nil => exact (List.map_eq_nil_iff.1 hk.symm).symm
  | cons e es ih =>
    obtain ⟨f, fs, rfl⟩ := List.exists_cons_of_ne_nil (l := fs) (by rintro rfl; simp at hk)
    obtain ⟨hef, hk⟩ := List.cons.inj (by simpa using hk)
    obtain ⟨he, hes⟩ := List.nodup_cons.1 (List.map_cons ▸ h)
    -- the keys agree, so the values of the first entries do, and the tails by induction
    have hval : e.2 = f.2 := by
      have := hv e.1
      simpa [valueIn?, hef] using this
    have htail : ∀ k, valueIn? k es = valueIn? k fs := by
      intro k
      by_cases hke : e.1 = k
      · have hne : ∀ gs : List (κ × ν), k ∉ gs.map Prod.fst → valueIn? k gs = none := by
          intro gs hgs
          rwa [← valueIn?_isSome, Option.not_isSome_iff_eq_none] at hgs
        rw [hne es (hke ▸ he), hne fs (hk ▸ hke ▸ he)]
      · have hkf : ¬f.1 = k := hef ▸ hke
        have := hv k
        simpa [valueIn?, hke, hkf] using this
    rw [Prod.ext hef hval, ih hes hk htail]

/-- A table is known by its keys in order and its values. -/
theorem ext_find? {s t : Assoc κ ν} (hk : s.keys = t.keys) (hv : ∀ k, s.find? k = t.find? k) :
    s = t :=
  ext (toList_eq_of_valueIn?_eq s.nodup_keys hk hv)

/-- A value under a new key goes to the end. -/
theorem toList_put_of_find?_eq_none {t : Assoc κ ν} {k : κ} (hk : t.find? k = none) (v : ν) :
    (t.put k v).toList = t.toList ++ [(k, v)] := by
  have hput : ∀ es : List (κ × ν), valueIn? k es = none → putEntry k v es = es ++ [(k, v)] := by
    intro es hes
    induction es with
    | nil => rfl
    | cons e es ih =>
      rw [valueIn?] at hes
      split_ifs at hes with he
      rw [putEntry, if_neg he, ih hes, List.cons_append]
  exact hput t.toList hk

/-! ### Passes over entries -/

theorem find?_alter (t : Assoc κ ν) (k j : κ) (f : Option ν → ν) :
    (t.alter k f).find? j = if k = j then some (f (t.find? j)) else t.find? j := by
  rw [alter, find?_put]
  split_ifs with h
  · rw [h]
  · rfl

theorem keys_alter (t : Assoc κ ν) (k : κ) (f : Option ν → ν) :
    (t.alter k f).keys = (t.keys ++ [k]).eraseDups := by
  rw [alter, keys_put, List.eraseDups_append, eraseDups_of_nodup t.keys_nodup]
  by_cases hk : k ∈ t.keys <;> simp [List.removeAll, List.eraseDups_cons, hk]

/-- What a pass over entries makes of the value under a key: the pass alters it if there is an entry
for it. -/
theorem find?_foldl_alter (f : μ → Option ν → ν) {es : List (κ × μ)}
    (hes : (es.map Prod.fst).Nodup) (t : Assoc κ ν) (k : κ) :
    (es.foldl (fun t e => t.alter e.1 (f e.2)) t).find? k
      = ((valueIn? k es).map fun m => f m (t.find? k)).or (t.find? k) := by
  induction es generalizing t with
  | nil => rfl
  | cons e es ih =>
    obtain ⟨he, hes⟩ := List.nodup_cons.1 (List.map_cons ▸ hes)
    rw [List.foldl_cons, ih hes, find?_alter]
    by_cases hk : e.1 = k
    · have hnone : valueIn? k es = none := by
        rwa [← Option.not_isSome_iff_eq_none, valueIn?_isSome, ← hk]
      simp [valueIn?, hk, hnone]
    · simp [valueIn?, hk]

/-- After a pass over entries, the keys stand in the order of their first appearance. -/
theorem keys_foldl_alter (f : μ → Option ν → ν) (es : List (κ × μ)) (t : Assoc κ ν) :
    (es.foldl (fun t e => t.alter e.1 (f e.2)) t).keys
      = (t.keys ++ es.map Prod.fst).eraseDups := by
  induction es generalizing t with
  | nil => simpa using (eraseDups_of_nodup t.keys_nodup).symm
  | cons e es ih =>
    rw [List.foldl_cons, ih, keys_alter, eraseDups_eraseDups_append, List.append_assoc]
    rfl

/-! ### Tables from lists of entries -/

theorem find?_foldl_put (es : List (κ × ν)) (t : Assoc κ ν) (k : κ) :
    (es.foldl (fun t e => t.put e.1 e.2) t).find? k
      = ((es.reverse.find? fun e => e.1 = k).map Prod.snd).or (t.find? k) := by
  induction es generalizing t with
  | nil => rfl
  | cons e es ih =>
    rw [List.foldl_cons, ih, List.reverse_cons, List.find?_append, find?_put]
    cases es.reverse.find? fun e => e.1 = k with
    | some _ => rfl
    | none => by_cases hk : e.1 = k <;> simp [hk]

theorem find?_ofList (es : List (κ × ν)) (k : κ) :
    (ofList es).find? k = (es.reverse.find? fun e => e.1 = k).map Prod.snd := by
  rw [ofList, find?_foldl_put, find?_empty, Option.or_none]

theorem mem_of_find?_ofList {es : List (κ × ν)} {k : κ} {v : ν}
    (h : (ofList es).find? k = some v) : (k, v) ∈ es := by
  rw [find?_ofList, Option.map_eq_some_iff] at h
  obtain ⟨e, he, rfl⟩ := h
  have hk : e.1 = k := by simpa using List.find?_some he
  have hmem : e ∈ es := List.mem_reverse.1 (List.mem_of_find?_eq_some he)
  rwa [← hk]

theorem isSome_find?_ofList {es : List (κ × ν)} {k : κ} {v : ν} (h : (k, v) ∈ es) :
    ((ofList es).find? k).isSome := by
  rw [find?_ofList, Option.isSome_map, List.find?_isSome]
  exact ⟨(k, v), List.mem_reverse.2 h, by simp⟩

/-! ### Tables of what a function makes of keys -/

/-- Whether each value of a table is what a function makes of its key. -/
def Keeps (t : Assoc κ ν) (f : κ → ν) : Prop := ∀ k v, t.find? k = some v → v = f k

variable {f : κ → ν} {t : Assoc κ ν} {k : κ} {v : ν}

theorem keeps_empty (f : κ → ν) : (∅ : Assoc κ ν).Keeps f := by
  intro k v h
  cases h

theorem Keeps.put (h : t.Keeps f) (hv : v = f k) : (t.put k v).Keeps f := by
  intro j w hw
  rw [find?_put] at hw
  split_ifs at hw with hk
  · rw [← hk, ← hv, Option.some.inj hw]
  · exact h j w hw

theorem Keeps.putNew (h : t.Keeps f) (hv : v = f k) : (t.putNew k v).Keeps f := by
  unfold Assoc.putNew
  split_ifs
  · exact h
  · exact h.put hv

theorem Keeps.find?_eq (h : t.Keeps f) (hk : k ∈ t.keys) : t.find? k = some (f k) := by
  obtain ⟨v, hv⟩ := exists_find?_of_mem_keys hk
  rw [hv, h k v hv]

theorem mem_keys_put (t : Assoc κ ν) (k j : κ) (v : ν) :
    j ∈ (t.put k v).keys ↔ j = k ∨ j ∈ t.keys := by
  rw [← isSome_find?_iff, find?_put, ← isSome_find?_iff]
  by_cases hj : k = j
  · simp [hj]
  · simp [hj, Ne.symm hj]

theorem mem_keys_putNew (t : Assoc κ ν) (k j : κ) (v : ν) :
    j ∈ (t.putNew k v).keys ↔ j = k ∨ j ∈ t.keys := by
  rw [← isSome_find?_iff, find?_putNew, ← isSome_find?_iff]
  by_cases hj : k = j
  · simp [hj]
  · simp [hj, Ne.symm hj]

end Assoc

end ScriptSurface
