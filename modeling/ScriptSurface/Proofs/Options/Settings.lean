import ScriptSurface.Options.Document
import ScriptSurface.Proofs.Documents

/-!
# Settings of options

A setting is a value for one of the options (`Options.Setting`), and may be written in a document in
one way or another (`Setting.WrittenAs`).  The options are the fields of a record, and what is read
as the value of a field is what is written as a setting of the option (`Options.Gives`), as long as
the format keeps to the rules.
-/

namespace ScriptSurface.Options

/-- A value for one of the options. -/
inductive Setting where
  /-- The order in which declared members are gone through. -/
  | discoveryOrder (order : DiscoveryOrder)
  /-- Whether methods named like getters and setters make properties. -/
  | beanProperties (b : Bool)
  /-- Whether the universal base type has members of its own. -/
  | exposeBaseTypeMembers (b : Bool)
  /-- Whether protected fields and methods are exposed. -/
  | includeProtected (b : Bool)
  /-- How deep substitution goes. -/
  | maxDepth (depth : UInt32)

namespace Setting

/-- The key of the option in documents. -/
def key : Setting → String
  | discoveryOrder _ => "discoveryOrder"
  | beanProperties _ => "beanProperties"
  | exposeBaseTypeMembers _ => "exposeBaseTypeMembers"
  | includeProtected _ => "includeProtected"
  | maxDepth _ => "maxConsolidationDepth"

/-- The setting is written as a part of a document: an order by its name, or by an object that holds
null under its name; a truth value as such; and a depth in decimal digits. -/
def WrittenAs : Setting → Json → Prop
  | discoveryOrder order, v =>
    v = .string (some order.name) ∨ v = .object [(some order.name, .null)]
  | beanProperties b, v => v = .bool b
  | exposeBaseTypeMembers b, v => v = .bool b
  | includeProtected b, v => v = .bool b
  | maxDepth depth, v => v = .number (Nat.toDigits 10 depth.toNat)

end Setting

/-- The options with one of them replaced. -/
def set (o : Options) : Setting → Options
  | .discoveryOrder order => { o with discoveryOrder := order }
  | .beanProperties b => { o with beanProperties := b }
  | .exposeBaseTypeMembers b => { o with exposeBaseTypeMembers := b }
  | .includeProtected b => { o with includeProtected := b }
  | .maxDepth depth => { o with maxDepth := depth }

/-- What the options are set to, in the order in which they are written. -/
def settings (o : Options) : List Setting :=
  [.discoveryOrder o.discoveryOrder, .beanProperties o.beanProperties,
    .exposeBaseTypeMembers o.exposeBaseTypeMembers, .includeProtected o.includeProtected,
    .maxDepth o.maxDepth]

/-- The options that settings leave of others; of settings of one option the first counts. -/
def withSettings (o : Options) (settings : List Setting) : Options :=
  settings.foldr (fun s o => o.set s) o

theorem withSettings_settings (o₀ o : Options) : o₀.withSettings o.settings = o := rfl

/-! ### Fields -/

/-- The settings that a field of the record gives. -/
structure Gives (f : RecordField Options) (make : f.α → Setting) : Prop where
  /-- It is one of the fields. -/
  mem : f ∈ record.fields
  /-- The settings with its key are those it gives. -/
  key_eq_iff : ∀ s : Setting, s.key = f.key ↔ ∃ a, s = make a
  /-- The options are set to its value. -/
  set_eq : ∀ (o : Options) (a : f.α), o.set (make a) = f.set o a
  /-- What is read as its value is what is written as the setting. -/
  value?_eq_some_iff : ∀ {F : DocumentFormat}, F.Conforms → ∀ {v : Json} {cs : List Char},
    v.IsText cs → ∀ a, F.value? f.type v = some a ↔ (make a).WrittenAs v

theorem gives_discoveryOrder : Gives discoveryOrderField Setting.discoveryOrder where
  mem := by simp [record]
  key_eq_iff s := by cases s <;> simp [Setting.key, discoveryOrderField]
  set_eq _ _ := rfl
  value?_eq_some_iff hF v cs hv order := by
    have hmem : order ∈ [DiscoveryOrder.sortedByName, .declared] := by cases order <;> decide
    exact (hF.value_choice (by decide) hv order).trans (and_iff_right hmem)

theorem gives_beanProperties : Gives beanPropertiesField Setting.beanProperties where
  mem := by simp [record]
  key_eq_iff s := by cases s <;> simp [Setting.key, beanPropertiesField]
  set_eq _ _ := rfl
  value?_eq_some_iff hF _ _ hv := hF.value_bool hv

theorem gives_exposeBaseTypeMembers :
    Gives exposeBaseTypeMembersField Setting.exposeBaseTypeMembers where
  mem := by simp [record]
  key_eq_iff s := by cases s <;> simp [Setting.key, exposeBaseTypeMembersField]
  set_eq _ _ := rfl
  value?_eq_some_iff hF _ _ hv := hF.value_bool hv

theorem gives_includeProtected : Gives includeProtectedField Setting.includeProtected where
  mem := by simp [record]
  key_eq_iff s := by cases s <;> simp [Setting.key, includeProtectedField]
  set_eq _ _ := rfl
  value?_eq_some_iff hF _ _ hv := hF.value_bool hv

theorem gives_maxDepth : Gives maxDepthField Setting.maxDepth where
  mem := by simp [record]
  key_eq_iff s := by cases s <;> simp [Setting.key, maxDepthField]
  set_eq _ _ := rfl
  value?_eq_some_iff hF _ _ hv := hF.value_whole hv

/-- Each setting is given by one of the fields. -/
theorem Setting.exists_gives (s : Setting) :
    ∃ (f : RecordField Options) (make : f.α → Setting) (a : f.α), Gives f make ∧ s = make a := by
  cases s with
  | discoveryOrder order => exact ⟨_, _, order, gives_discoveryOrder, rfl⟩
  | beanProperties b => exact ⟨_, _, b, gives_beanProperties, rfl⟩
  | exposeBaseTypeMembers b => exact ⟨_, _, b, gives_exposeBaseTypeMembers, rfl⟩
  | includeProtected b => exact ⟨_, _, b, gives_includeProtected, rfl⟩
  | maxDepth depth => exact ⟨_, _, depth, gives_maxDepth, rfl⟩

/-- Each field gives some setting. -/
theorem exists_setting_of_mem {f : RecordField Options} (hf : f ∈ record.fields) :
    ∃ s : Setting, s.key = f.key := by
  simp only [record, List.mem_cons, List.not_mem_nil, or_false] at hf
  rcases hf with rfl | rfl | rfl | rfl | rfl
  · exact ⟨.discoveryOrder .declared, rfl⟩
  · exact ⟨.beanProperties true, rfl⟩
  · exact ⟨.exposeBaseTypeMembers true, rfl⟩
  · exact ⟨.includeProtected true, rfl⟩
  · exact ⟨.maxDepth 0, rfl⟩

end ScriptSurface.Options
