import ScriptSurface.Proofs.Json.Documents
import ScriptSurface.Proofs.Options.Settings

/-!
# Options are loaded from any partial object

The members of an object list settings (`Options.Lists`) if every option has one member at most and
that is written as a setting of it; members under other keys do not matter.  What can be wrong about
an object is that it gives an option twice (`Options.Repeats`), that it gives one something else
than a setting of it (`Options.Mistypes`), or that one of its keys stands for no text.

A format that keeps to the rules goes through an object member by member.  By induction on the
members, an object that lists settings is read as the defaults with these settings, and one with
anything wrong about it is not read, since what is wrong with the rest of an object is wrong with
the whole.  Nor is one read with anything but blanks after it (`Options.load?_partial_objects`).
What is written is read back.
-/

namespace ScriptSurface.Options

/-! ### Members -/

/-- The members give these options their settings, each of them once. -/
inductive Lists : List (Option String × Json) → List Setting → Prop where
  /-- No members. -/
  | nil : Lists [] []
  /-- An option that is not given again. -/
  | setting {s : Setting} {v : Json} {members : List (Option String × Json)}
    {settings : List Setting} (hv : s.WrittenAs v) (honce : ∀ m ∈ members, m.1 ≠ some s.key)
    (h : Lists members settings) : Lists ((some s.key, v) :: members) (s :: settings)
  /-- A key of no option, with any value. -/
  | other {key : Option String} {v : Json} {members : List (Option String × Json)}
    {settings : List Setting} (hkey : ∀ s : Setting, key ≠ some s.key)
    (h : Lists members settings) : Lists ((key, v) :: members) settings

/-- The members give an option more than once. -/
def Repeats (members : List (Option String × Json)) : Prop :=
  ∃ s : Setting, 1 < (members.map Prod.fst).count (some s.key)

/-- The members give an option something that is not written as a setting of it. -/
def Mistypes (members : List (Option String × Json)) : Prop :=
  ∃ (s : Setting) (v : Json), (some s.key, v) ∈ members ∧
    ∀ t : Setting, t.key = s.key → ¬t.WrittenAs v

variable {members : List (Option String × Json)} {settings : List Setting} {s : Setting} {v : Json}

theorem ne_key_of_not_repeats (h : ¬Repeats ((some s.key, v) :: members)) :
    ∀ m ∈ members, m.1 ≠ some s.key := by
  intro m hm hkey
  have hpos : 0 < (members.map Prod.fst).count (some s.key) :=
    List.count_pos_iff.2 (List.mem_map.2 ⟨m, hm, hkey⟩)
  refine h ⟨s, ?_⟩
  rw [List.map_cons, List.count_cons_self]
  omega

/-- An option that is given more than once is given first and again, or more than once after the
first member. -/
theorem Repeats.cons_cases {m : Option String × Json} (h : Repeats (m :: members)) :
    (∃ s : Setting, m.1 = some s.key ∧ ∃ m' ∈ members, m'.1 = some s.key) ∨ Repeats members := by
  obtain ⟨s, hs⟩ := h
  rw [List.map_cons] at hs
  by_cases hm : m.1 = some s.key
  · rw [hm, List.count_cons_self] at hs
    have hpos : 0 < (members.map Prod.fst).count (some s.key) := by omega
    exact .inl ⟨s, hm, List.mem_map.1 (List.count_pos_iff.1 hpos)⟩
  · rw [List.count_cons_of_ne hm] at hs
    exact .inr ⟨s, hs⟩

/-- Members that give no option twice and no option anything else than a setting of it list
settings. -/
theorem exists_lists (hrepeats : ¬Repeats members) (hmistypes : ¬Mistypes members) :
    ∃ settings, Lists members settings := by
  induction members with
  | nil => exact ⟨[], .nil⟩
  | cons m members ih =>
    obtain ⟨key, v⟩ := m
    have hrest : ∃ settings, Lists members settings := by
      refine ih ?_ ?_
      · rintro ⟨s, hs⟩
        exact hrepeats ⟨s, hs.trans_le List.count_le_count_cons⟩
      · rintro ⟨s, w, hw, hs⟩
        exact hmistypes ⟨s, w, List.mem_cons_of_mem _ hw, hs⟩
    obtain ⟨settings, h⟩ := hrest
    -- the first member is that of an option, of which it must be a setting, or it does not matter
    by_cases hkey : ∃ s : Setting, key = some s.key
    · obtain ⟨s, rfl⟩ := hkey
      obtain ⟨t, hts, hv⟩ : ∃ t : Setting, t.key = s.key ∧ t.WrittenAs v := by
        by_contra hnone
        exact hmistypes ⟨s, v, List.mem_cons_self, fun t hts hv => hnone ⟨t, hts, hv⟩⟩
      rw [← hts] at hrepeats ⊢
      exact ⟨t :: settings, .setting hv (ne_key_of_not_repeats hrepeats) h⟩
    · exact ⟨settings, .other (fun s hs => hkey ⟨s, hs⟩) h⟩

/-! ### One member -/

section Member

variable {F : DocumentFormat} {key : Option String} {text rest : String}

/-- A member that is written as a setting sets the option. -/
theorem load?_setting (hF : F.Conforms)
    (h : (Json.object ((some s.key, v) :: members)).IsDocument text)
    (hrest : (Json.object members).IsDocument rest) (honce : ∀ m ∈ members, m.1 ≠ some s.key)
    (hv : s.WrittenAs v) : load? F text = (load? F rest).map fun o => o.set s := by
  obtain ⟨f, make, a, hgives, rfl⟩ := s.exists_gives
  have hkey : (make a).key = f.key := (hgives.key_eq_iff _).2 ⟨a, rfl⟩
  obtain ⟨cs, hcs⟩ := h.exists_isText_of_mem _ List.mem_cons_self
  rw [hkey] at h honce
  have hvalue : F.value? f.type v = some a := (hgives.value?_eq_some_iff hF hcs a).2 hv
  unfold load?
  rw [hF.read_field record h hrest hgives.mem honce, hvalue, Option.bind_some]
  simp only [hgives.set_eq]

/-- A member under the key of an option that is written as no setting of it is refused. -/
theorem load?_mistyped (hF : F.Conforms)
    (h : (Json.object ((some s.key, v) :: members)).IsDocument text)
    (hv : ∀ t : Setting, t.key = s.key → ¬t.WrittenAs v) : load? F text = none := by
  obtain ⟨f, make, a, hgives, rfl⟩ := s.exists_gives
  have hkey : ∀ a, (make a).key = f.key := fun a => (hgives.key_eq_iff _).2 ⟨a, rfl⟩
  obtain ⟨cs, hcs⟩ := h.exists_isText_of_mem _ List.mem_cons_self
  obtain ⟨rest, hrest⟩ := h.exists_rest
  rw [hkey] at h hv
  have hvalue : F.value? f.type v = none := by
    refine Option.eq_none_iff_forall_ne_some.2 fun b hb => ?_
    exact hv (make b) (hkey b) ((hgives.value?_eq_some_iff hF hcs b).1 hb)
  unfold load?
  by_cases honce : ∀ m ∈ members, m.1 ≠ some f.key
  · rw [hF.read_field record h hrest hgives.mem honce, hvalue, Option.bind_none]
  · push Not at honce
    exact hF.read_repeated record h hgives.mem honce

/-- A member under the key of an option that is given again is refused. -/
theorem load?_repeated (hF : F.Conforms)
    (h : (Json.object ((some s.key, v) :: members)).IsDocument text)
    (hagain : ∃ m ∈ members, m.1 = some s.key) : load? F text = none := by
  obtain ⟨f, make, a, hgives, rfl⟩ := s.exists_gives
  have hkey : (make a).key = f.key := (hgives.key_eq_iff _).2 ⟨a, rfl⟩
  rw [hkey] at h hagain
  exact hF.read_repeated record h hgives.mem hagain

/-- A member under another key does not matter. -/
theorem load?_other {key : String} (hF : F.Conforms)
    (h : (Json.object ((some key, v) :: members)).IsDocument text)
    (hrest : (Json.object members).IsDocument rest) (hkey : ∀ s : Setting, s.key ≠ key) :
    load? F text = load? F rest := by
  refine hF.read_unknown record h hrest fun f hf hfk => ?_
  obtain ⟨s, hs⟩ := exists_setting_of_mem hf
  exact hkey s (hs.trans hfk)

/-- What is wrong with the rest of an object is wrong with the whole. -/
theorem load?_eq_none_of_rest (hF : F.Conforms)
    (h : (Json.object ((key, v) :: members)).IsDocument text)
    (hrest : (Json.object members).IsDocument rest) (hnone : load? F rest = none) :
    load? F text = none := by
  cases key with
  | none => exact hF.read_textless record h
  | some key =>
    by_cases hkey : ∃ s : Setting, s.key = key
    · obtain ⟨s, rfl⟩ := hkey
      -- the first member may be refused itself; otherwise what is read of the rest goes into it
      by_cases hagain : ∃ m ∈ members, m.1 = some s.key
      · exact load?_repeated hF h hagain
      by_cases hv : ∃ t : Setting, t.key = s.key ∧ t.WrittenAs v
      · obtain ⟨t, hts, hv⟩ := hv
        push Not at hagain
        rw [← hts] at h hagain
        rw [load?_setting hF h hrest hagain hv, hnone, Option.map_none]
      · push Not at hv
        exact load?_mistyped hF h hv
    · push Not at hkey
      rw [load?_other hF h hrest hkey, hnone]

end Member

/-! ### Objects -/

/-- An object that lists settings is read as the defaults with the settings. -/
theorem load?_of_lists {F : DocumentFormat} (hF : F.Conforms) (h : Lists members settings)
    (hkeys : ∀ m ∈ members, m.1 ≠ none) {text : String}
    (htext : (Json.object members).IsDocument text) :
    load? F text = some (default.withSettings settings) := by
  induction h generalizing text with
  | nil => exact hF.read_empty record htext
  | setting hv honce _ ih =>
    obtain ⟨rest, hrest⟩ := htext.exists_rest
    rw [load?_setting hF htext hrest honce hv, ih (List.forall_mem_cons.1 hkeys).2 hrest]
    rfl
  | @other key _ _ _ hkey _ ih =>
    -- a key of no option is passed over only if it stands for a text
    obtain ⟨htextless, hlater⟩ := List.forall_mem_cons.1 hkeys
    obtain ⟨rest, hrest⟩ := htext.exists_rest
    cases key with
    | none => exact absurd rfl htextless
    | some key => rw [load?_other hF htext hrest fun s hs => hkey s (hs ▸ rfl), ih hlater hrest]

/-- An object is not read if anything is wrong about it. -/
theorem load?_eq_none_of_wrong {F : DocumentFormat} (hF : F.Conforms)
    (hwrong : Repeats members ∨ Mistypes members ∨ ∃ m ∈ members, m.1 = none) {text : String}
    (htext : (Json.object members).IsDocument text) : load? F text = none := by
  induction members generalizing text with
  | nil =>
    rcases hwrong with ⟨s, hs⟩ | ⟨s, v, hv, -⟩ | ⟨m, hm, -⟩
    · exact absurd hs (by simp)
    · cases hv
    · cases hm
  | cons m members ih =>
    obtain ⟨key, v⟩ := m
    obtain ⟨rest, hrest⟩ := htext.exists_rest
    -- what is wrong is either the first member or something about the rest
    have hlater := fun hwrong => load?_eq_none_of_rest hF htext hrest (ih hwrong hrest)
    rcases hwrong with hrepeats | ⟨s, w, hw, hs⟩ | ⟨m, hm, hnone⟩
    · rcases hrepeats.cons_cases with ⟨s, rfl, hagain⟩ | hrepeats
      · exact load?_repeated hF htext hagain
      · exact hlater (.inl hrepeats)
    · rcases List.mem_cons.1 hw with heq | hw
      · obtain ⟨rfl, rfl⟩ := Prod.mk.inj heq
        exact load?_mistyped hF htext hs
      · exact hlater (.inr (.inl ⟨s, w, hw, hs⟩))
    · rcases List.mem_cons.1 hm with rfl | hm
      · obtain rfl : key = none := hnone
        exact hF.read_textless record htext
      · exact hlater (.inr (.inr ⟨m, hm, hnone⟩))

theorem load?_eq_none_iff {F : DocumentFormat} (hF : F.Conforms) {text : String}
    (htext : (Json.object members).IsDocument text) : load? F text = none ↔
      Repeats members ∨ Mistypes members ∨ ∃ m ∈ members, m.1 = none := by
  refine ⟨fun hnone => ?_, fun hwrong => load?_eq_none_of_wrong hF hwrong htext⟩
  -- with nothing wrong about it the object lists settings, and is read
  by_contra hgood
  push Not at hgood
  obtain ⟨hrepeats, hmistypes, hkeys⟩ := hgood
  obtain ⟨settings, h⟩ := exists_lists hrepeats hmistypes
  rw [load?_of_lists hF h hkeys htext] at hnone
  cases hnone

/-! ### Writing -/

/-- How a setting is written. -/
def Setting.value : Setting → Json
  | discoveryOrder order => .string (some order.name)
  | beanProperties b => .bool b
  | exposeBaseTypeMembers b => .bool b
  | includeProtected b => .bool b
  | maxDepth depth => .number (Nat.toDigits 10 depth.toNat)

theorem Setting.writtenAs_value (s : Setting) : s.WrittenAs s.value := by
  cases s with
  | discoveryOrder => exact .inl rfl
  | _ => rfl

theorem lists_map_value {settings : List Setting} (h : (settings.map Setting.key).Nodup) :
    Lists (settings.map fun s => (some s.key, s.value)) settings := by
  induction settings with
  | nil => exact .nil
  | cons s settings ih =>
    rw [List.map_cons, List.nodup_cons] at h
    refine .setting s.writtenAs_value ?_ (ih h.2)
    intro m hm hkey
    obtain ⟨t, ht, rfl⟩ := List.mem_map.1 hm
    exact h.1 (List.mem_map.2 ⟨t, ht, Option.some.inj hkey⟩)

theorem members_record (o : Options) :
    record.members o = o.settings.map fun s => (some s.key, s.value) := rfl

/-- What is written is read back. -/
theorem load?_save {F : DocumentFormat} (hF : F.Conforms) (o : Options) :
    load? F (save F o) = some o := by
  have htext : (Json.object (record.members o)).IsDocument (save F o) := by
    refine ⟨[], _, [], Json.blanks_nil, hF.write_text record o, Json.blanks_nil, ?_⟩
    rw [List.nil_append, List.append_nil, String.ofList_toList]
    rfl
  have hnodup : (o.settings.map Setting.key).Nodup := by
    simp [settings, Setting.key]
  have hkeys : ∀ m ∈ o.settings.map fun s => (some s.key, s.value), m.1 ≠ none := by
    intro m hm
    obtain ⟨s, -, rfl⟩ := List.mem_map.1 hm
    exact Option.some_ne_none _
  rw [members_record] at htext
  rw [load?_of_lists hF (lists_map_value hnodup) hkeys htext, withSettings_settings]

/-! ### Documents -/

/-- **Options load from any partial object**, whatever format reads them by the rules: an object
that lists settings, under keys that stand for texts, is read as the defaults with these settings if
nothing but blanks is around it.  It is not read just if it gives an option twice or as something
else than a setting, if a key stands for no text, or if anything else follows.  What is written is
read back. -/
theorem load?_partial_objects {F : DocumentFormat} (hF : F.Conforms) :
    (∀ {members : List (Option String × Json)} {before cs after : List Char},
      Json.Blanks before → Json.IsText (.object members) cs →
        (∀ settings, Lists members settings → (∀ m ∈ members, m.1 ≠ none) → Json.Blanks after →
          load? F (String.ofList (before ++ (cs ++ after)))
            = some (default.withSettings settings)) ∧
        (load? F (String.ofList (before ++ (cs ++ after))) = none ↔
          Repeats members ∨ Mistypes members ∨ (∃ m ∈ members, m.1 = none) ∨
            ¬Json.Blanks after)) ∧
    ∀ o : Options, load? F (save F o) = some o := by
  refine ⟨?_, load?_save hF⟩
  intro members before cs after hbefore htext
  constructor
  · intro settings h hkeys hafter
    exact load?_of_lists hF h hkeys ⟨before, cs, after, hbefore, htext, hafter, rfl⟩
  · by_cases hafter : Json.Blanks after
    · rw [load?_eq_none_iff hF ⟨before, cs, after, hbefore, htext, hafter, rfl⟩]
      simp only [hafter, not_true_eq_false, or_false]
    · have hnone : load? F (String.ofList (before ++ (cs ++ after))) = none :=
        hF.read_trailing record hbefore htext hafter
      rw [hnone]
      simp only [hafter, not_false_eq_true, or_true]

/-- In JSON documents an unknown key does not matter. -/
theorem load?_unknown_key_beanProperties :
    Json.documents.Conforms ∧
      load? Json.documents " \x7b\"x\":null,\"beanProperties\":false\x7d\n"
        = some { default with beanProperties := false } := by
  have htext : Json.IsText (.object [(some "x", .null), (some "beanProperties", .bool false)])
      "\x7b\"x\":null,\"beanProperties\":false\x7d".toList :=
    .object (.cons (Json.isMember_text "x" .null)
      (.last (Json.isMember_text "beanProperties" .boolFalse)))
  have hlists : Lists [(some "x", .null), (some "beanProperties", .bool false)]
      [.beanProperties false] := by
    refine .other (fun s => by cases s <;> simp [Setting.key]) ?_
    exact .setting (s := .beanProperties false) rfl (by simp) .nil
  have hbefore : Json.Blanks [' '] := by decide
  have hafter : Json.Blanks ['\n'] := by decide
  exact ⟨Json.conforms_documents, ((load?_partial_objects Json.conforms_documents).1 hbefore
    htext).1 _ hlists (by simp) hafter⟩

/-- A key with half a surrogate pair stands for no text, and no format that reads by the rules
passes over it. -/
theorem not_load?_of_lists :
    Json.documents.Conforms ∧ ∀ F : DocumentFormat, F.Conforms →
      ¬∀ {members : List (Option String × Json)} {cs : List Char},
        Json.IsText (.object members) cs → ∀ settings, Lists members settings →
          load? F (String.ofList cs) = some (default.withSettings settings) := by
  refine ⟨Json.conforms_documents, fun F hF h => ?_⟩
  have hkey : Json.IsString none "\\ud800".toList := by
    have hspells : Json.Spells "\\ud800".toList [0xD800] := .unit rfl .nil
    refine ⟨_, hspells, fun t => ?_⟩
    rw [← Json.joinSurrogates_eq_some_iff hspells.lt]
    exact ⟨nofun, nofun⟩
  have htext : Json.IsText (.object [(none, .null)]) "\x7b\"\\ud800\":null\x7d".toList :=
    .object (.last (.intro Json.blanks_nil hkey Json.blanks_nil Json.blanks_nil .null
      Json.blanks_nil))
  have hread := h htext [] (.other nofun .nil)
  have hrefused := hF.read_textless record
    ⟨[], _, [], Json.blanks_nil, htext, Json.blanks_nil, rfl⟩
  rw [List.nil_append, List.append_nil] at hrefused
  rw [load?, hrefused] at hread
  cases hread

end ScriptSurface.Options
