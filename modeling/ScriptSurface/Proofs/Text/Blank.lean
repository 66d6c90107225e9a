import Mathlib.Data.List.TakeWhile
import ScriptSurface.Text.Blank

/-!
# What trimming leaves

`Text.IsTrim s t` says which text `t` is left of `s` when the blank characters at its ends are taken
off: there are only blank characters before and after it, and it has none at either end.  That is
what `Text.trim` answers and nothing else (`Text.isTrim_iff`), and nothing is left exactly of texts
that are `Text.Blank`.
-/

namespace ScriptSurface.Text

variable {s t : String}

/-- A text of blank characters only. -/
def Blank (s : String) : Prop := ∀ c ∈ s.toList, isBlank c = true

/-- A text with no blank character at either end. -/
structure Trimmed (s : String) : Prop where
  /-- It does not start with one. -/
  first : ∀ c, s.toList.head? = some c → isBlank c = false
  /-- It does not end with one. -/
  last : ∀ c, s.toList.getLast? = some c → isBlank c = false

/-- A text is another one without the blank characters at its ends. -/
structure IsTrim (s t : String) : Prop where
  /-- No blank character is left at either end. -/
  trimmed : Trimmed t
  /-- Nothing but blank characters is taken off. -/
  within : ∃ before after : String, s = before ++ t ++ after ∧ Blank before ∧ Blank after

/-! ### Characters -/

theorem dropWhile_isBlank_of_head? {l : List Char}
    (h : ∀ c, l.head? = some c → isBlank c = false) : l.dropWhile isBlank = l := by
  cases l with
  | nil => rfl
  | cons c l => exact List.dropWhile_cons_of_neg (by rw [h c rfl]; exact Bool.false_ne_true)

theorem head?_dropWhile_isBlank {l : List Char} {c : Char}
    (h : (l.dropWhile isBlank).head? = some c) : isBlank c = false := by
  have hhead := List.head?_dropWhile_not isBlank l
  rwa [h] at hhead

theorem trimBlank_append {before cs after : List Char} (hbefore : ∀ c ∈ before, isBlank c = true)
    (hafter : ∀ c ∈ after, isBlank c = true) (hfirst : ∀ c, cs.head? = some c → isBlank c = false)
    (hlast : ∀ c, cs.getLast? = some c → isBlank c = false) :
    trimBlank (before ++ cs ++ after) = cs := by
  have hafter' : ∀ c ∈ after.reverse, isBlank c = true := fun c hc =>
    hafter c (List.mem_reverse.1 hc)
  rw [trimBlank, List.append_assoc, List.dropWhile_append_of_pos hbefore]
  cases cs with
  | nil =>
    rw [List.nil_append, List.dropWhile_eq_nil_iff.2 hafter]
    rfl
  | cons c cs =>
    rw [dropWhile_isBlank_of_head? (l := c :: cs ++ after) (by simpa using hfirst c rfl),
      List.reverse_append, List.dropWhile_append_of_pos hafter',
      dropWhile_isBlank_of_head? (by simpa only [List.head?_reverse] using hlast),
      List.reverse_reverse]

/-- Trimming takes blank characters off both ends. -/
theorem exists_eq_append_trimBlank (cs : List Char) :
    ∃ before after : List Char, cs = before ++ trimBlank cs ++ after ∧
      (∀ c ∈ before, isBlank c = true) ∧ ∀ c ∈ after, isBlank c = true := by
  set rest := cs.dropWhile isBlank with hrest
  refine ⟨cs.takeWhile isBlank, (rest.reverse.takeWhile isBlank).reverse, ?_,
    fun c hc => List.mem_takeWhile_imp hc, fun c hc => ?_⟩
  · rw [trimBlank, ← hrest, List.append_assoc, ← List.reverse_append,
      List.takeWhile_append_dropWhile, List.reverse_reverse, hrest,
      List.takeWhile_append_dropWhile]
  · exact List.mem_takeWhile_imp (List.mem_reverse.1 hc)

/-! ### Texts -/

theorem trimmed_trim (s : String) : Trimmed (trim s) := by
  set rest := s.toList.dropWhile isBlank with hrest
  have htrim : (trim s).toList = (rest.reverse.dropWhile isBlank).reverse := String.toList_ofList
  refine ⟨fun c hc => ?_, fun c hc => ?_⟩
  · -- what is left starts where the text without its first blank characters starts
    rw [htrim] at hc
    have hsplit := congrArg List.reverse
      (List.takeWhile_append_dropWhile (p := isBlank) (l := rest.reverse))
    rw [List.reverse_append, List.reverse_reverse] at hsplit
    refine head?_dropWhile_isBlank (l := s.toList) ?_
    rw [← hrest, ← hsplit, List.head?_append, hc]
    rfl
  · rw [htrim, List.getLast?_reverse] at hc
    exact head?_dropWhile_isBlank hc

theorem isTrim_trim (s : String) : IsTrim s (trim s) := by
  obtain ⟨before, after, heq, hbefore, hafter⟩ := exists_eq_append_trimBlank s.toList
  refine ⟨trimmed_trim s, String.ofList before, String.ofList after, ?_, ?_, ?_⟩
  · rw [← String.toList_inj, String.toList_append, String.toList_append, trim,
      String.toList_ofList, String.toList_ofList, String.toList_ofList]
    exact heq
  · rwa [Blank, String.toList_ofList]
  · rwa [Blank, String.toList_ofList]

/-- The description leaves no choice. -/
theorem isTrim_iff : IsTrim s t ↔ t = trim s := by
  constructor
  · rintro ⟨htrimmed, before, after, rfl, hbefore, hafter⟩
    rw [← String.toList_inj, trim, String.toList_ofList, String.toList_append,
      String.toList_append]
    exact (trimBlank_append hbefore hafter htrimmed.first htrimmed.last).symm
  · rintro rfl
    exact isTrim_trim s

/-- What is left of a text that is not blank is not blank. -/
theorem IsTrim.blank_iff (h : IsTrim s t) : Blank s ↔ Blank t := by
  obtain ⟨-, before, after, rfl, hbefore, hafter⟩ := h
  unfold Blank at *
  simp only [String.toList_append, List.mem_append]
  exact ⟨fun hs c hc => hs c (.inl (.inr hc)),
    fun ht c hc => hc.elim (fun hc => hc.elim (hbefore c) (ht c)) (hafter c)⟩

/-- A text without blank characters at its ends is blank only if it is empty. -/
theorem Trimmed.blank_iff (h : Trimmed t) : Blank t ↔ t = "" := by
  constructor
  · intro hblank
    rw [← String.toList_eq_nil_iff]
    cases ht : t.toList with
    | nil => rfl
    | cons c cs =>
      have hfirst := h.first c (by rw [ht]; rfl)
      rw [hblank c (by rw [ht]; exact List.mem_cons_self)] at hfirst
      cases hfirst
  · rintro rfl
    exact fun c hc => absurd hc List.not_mem_nil

theorem nonBlank?_of_blank (h : Blank s) : nonBlank? s = none := by
  rw [nonBlank?, if_pos]
  rwa [← (trimmed_trim s).blank_iff, ← (isTrim_trim s).blank_iff]

theorem nonBlank?_of_not_blank (h : ¬Blank s) : nonBlank? s = some (trim s) := by
  rw [nonBlank?, if_neg]
  rwa [← (trimmed_trim s).blank_iff, ← (isTrim_trim s).blank_iff]

end ScriptSurface.Text
