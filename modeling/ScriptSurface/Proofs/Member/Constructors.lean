import ScriptSurface.Member.Discovery
import ScriptSurface.Proofs.Assoc
import ScriptSurface.Proofs.Member.HostCalls

/-!
# Constructors by signature

Scripts create instances by the constructors that a class declares public and not hidden, each with
exactly the erased parameters it is declared with.  Of those with the same parameters the last one
counts (`Executable.IsLastBy`).

The table of constructors comes about by going through the declared ones in order.
`Overloads.find?_ofConstructors_append` says what one more of them changes, and from that
`Overloads.areDeclared_ofConstructors` what the table holds in the end.  What creating an instance
then comes to is `Member.creates_of_areDeclared`.
-/

namespace ScriptSurface

/-! ### The constructor that counts -/

namespace Executable

/-- Scripts can create an instance by the constructor with exactly this signature. -/
structure CreatesBy (e : Executable) (s : Signature) : Prop where
  /-- It is public. -/
  isPublic : e.isPublic = true
  /-- It is not kept from scripts. -/
  shown : e.hidden = false
  /-- The erased parameters are those of the signature. -/
  params : e.params = s.types

/-- The last of the declared constructors by which scripts can create an instance with exactly this
signature. -/
def IsLastBy (declared : List Executable) (s : Signature) (e : Executable) : Prop :=
  ∃ before after, declared = before ++ e :: after ∧ e.CreatesBy s ∧ ∀ x ∈ after, ¬x.CreatesBy s

variable {declared : List Executable} {s : Signature} {a e : Executable}

/-- One more constructor is the last one if it has the signature, and makes no difference if not. -/
theorem isLastBy_append_iff : IsLastBy (declared ++ [a]) s e ↔
    a.CreatesBy s ∧ e = a ∨ ¬a.CreatesBy s ∧ IsLastBy declared s e := by
  constructor
  · rintro ⟨before, after, hsplit, he, hafter⟩
    rcases List.eq_nil_or_concat' after with rfl | ⟨after, x, rfl⟩
    · obtain ⟨-, hea⟩ := List.append_inj' hsplit rfl
      obtain rfl : a = e := by simpa using hea
      exact .inl ⟨he, rfl⟩
    · rw [← List.cons_append, ← List.append_assoc] at hsplit
      obtain ⟨hdeclared, hx⟩ := List.append_inj' hsplit rfl
      obtain rfl : a = x := by simpa using hx
      refine .inr ⟨hafter a (by simp), before, after, hdeclared, he, fun y hy => ?_⟩
      exact hafter y (List.mem_append_left _ hy)
  · rintro (⟨ha, rfl⟩ | ⟨ha, before, after, rfl, he, hafter⟩)
    · exact ⟨declared, [], rfl, ha, nofun⟩
    · refine ⟨before, after ++ [a], by simp, he, fun y hy => ?_⟩
      rcases List.mem_append.1 hy with hy | hy
      · exact hafter y hy
      · obtain rfl := List.mem_singleton.1 hy
        exact ha

end Executable

open Executable (IsLastBy)

/-! ### The table -/

namespace Overloads

/-- The table that the declared constructors give. -/
def ofConstructors (declared : List Executable) : Overloads :=
  (declared.filter fun e => e.isPublic && !e.hidden).foldl
    (fun t e => t.put ⟨e.params⟩ (Binding.ofExecutable e)) ∅

/-- What one more constructor changes. -/
theorem find?_ofConstructors_append (declared : List Executable) (a : Executable) (s : Signature) :
    a.CreatesBy s ∧ (ofConstructors (declared ++ [a])).find? s = some (.ofExecutable a) ∨
      ¬a.CreatesBy s ∧
        (ofConstructors (declared ++ [a])).find? s = (ofConstructors declared).find? s := by
  unfold ofConstructors
  rw [List.filter_append, List.foldl_append, List.filter_singleton]
  cases heligible : a.isPublic && !a.hidden with
  | false =>
    refine .inr ⟨fun ha => ?_, rfl⟩
    rw [ha.isPublic, ha.shown] at heligible
    cases heligible
  | true =>
    rw [Bool.and_eq_true, Bool.not_eq_true'] at heligible
    simp only [cond_true, List.foldl_cons, List.foldl_nil]
    rw [Assoc.find?_put]
    by_cases hparams : (⟨a.params⟩ : Signature) = s
    · rw [if_pos hparams]
      exact .inl ⟨⟨heligible.1, heligible.2, congrArg Signature.types hparams⟩, rfl⟩
    · rw [if_neg hparams]
      refine .inr ⟨fun ha => hparams ?_, rfl⟩
      rw [ha.params]

/-- A table has by each signature the last of the declared constructors with it, as a candidate
without a property, and nothing if there is none. -/
structure AreDeclared (t : Overloads) (declared : List Executable) : Prop where
  /-- What is found is the last one. -/
  found_iff : ∀ s b, t.find? s = some b ↔ ∃ e, IsLastBy declared s e ∧ b = .ofExecutable e
  /-- Nothing is found only where there is none. -/
  absent_iff : ∀ s, t.find? s = none ↔ ∀ e ∈ declared, ¬e.CreatesBy s

theorem areDeclared_ofConstructors (declared : List Executable) :
    (ofConstructors declared).AreDeclared declared := by
  induction declared using List.reverseRecOn with
  | nil =>
    refine ⟨fun s b => ⟨nofun, ?_⟩, fun s => ⟨nofun, fun _ => rfl⟩⟩
    rintro ⟨e, ⟨before, after, hsplit, -⟩, -⟩
    cases before <;> cases hsplit
  | append_singleton declared a ih =>
    constructor
    · intro s b
      rcases find?_ofConstructors_append declared a s with ⟨ha, hfind⟩ | ⟨ha, hfind⟩
      · rw [hfind]
        simp [Executable.isLastBy_append_iff, ha, eq_comm]
      · rw [hfind, ih.found_iff]
        simp [Executable.isLastBy_append_iff, ha]
    · intro s
      rcases find?_ofConstructors_append declared a s with ⟨ha, hfind⟩ | ⟨ha, hfind⟩
      · rw [hfind]
        exact ⟨nofun, fun hnone => absurd ha (hnone a (by simp))⟩
      · rw [hfind, ih.absent_iff]
        simp [or_imp, forall_and, ha]

end Overloads

/-- The constructors of a class are those it declares, whatever the rest of the environment is. -/
theorem Environment.areDeclared_constructors (env : Environment) (c : ClassId) :
    (env.constructors c).AreDeclared (env.types.constructors c) :=
  Overloads.areDeclared_ofConstructors (env.types.constructors c)

theorem Environment.constructors_congr {env env' : Environment} {c c' : ClassId}
    (h : env'.types.constructors c' = env.types.constructors c) :
    env'.constructors c' = env.constructors c :=
  congrArg Overloads.ofConstructors h

/-! ### Creating an instance -/

namespace Member

variable {ω σ ε : Type}

/-- To create an instance of a type is to call the last of the declared constructors with exactly
the signature, once and without a receiver, and to answer what comes of that call.  It comes to
nothing, and the host is left alone, exactly if there is none. -/
structure Creates (declared : List Executable) (host : Host ω σ ε) (owner : String) (s : Signature)
    (args : List (Option ω)) (use : Use σ ε (Lookup ω))
    (logged : Use (σ × List (HostCall ω)) ε (Lookup ω)) (state : σ) : Prop where
  /-- The last one is called. -/
  called : ∀ e, IsLastBy declared s e →
    CallsOnce host owner Executable.constructorName (some (.call e none args)) use logged state
  /-- If there is none, there is no call. -/
  untouched : (∀ e ∈ declared, ¬e.CreatesBy s) →
    CallsOnce host owner Executable.constructorName none use logged state
  /-- It comes to nothing exactly if there is none. -/
  absent_iff : (use state).1 = .ok .absent ↔ ∀ e ∈ declared, ¬e.CreatesBy s

theorem creates_of_areDeclared {declared : List Executable} {t : Overloads}
    (ht : t.AreDeclared declared) (host : Host ω σ ε) (owner : String) (s : Signature)
    (args : List (Option ω)) (state : σ) :
    Creates declared host owner s args (construct host owner t s args)
      (construct host.logged owner t s args) state := by
  have honce := callsOnce_construct host owner t s args state
  cases hfind : t.find? s with
  | none =>
    have hnone := (ht.absent_iff s).1 hfind
    have hdemand : (t.constructDemand s args).call? = none := by
      rw [Overloads.constructDemand, hfind]
      rfl
    rw [hdemand] at honce
    refine ⟨fun e he => ?_, fun _ => honce, fun _ => hnone, fun _ => ?_⟩
    · rw [(ht.found_iff s _).2 ⟨e, he, rfl⟩] at hfind
      cases hfind
    · rw [construct, hfind]
      rfl
  | some b =>
    have hsome : ¬∀ e ∈ declared, ¬e.CreatesBy s := by
      rw [← ht.absent_iff, hfind]
      exact nofun
    have hdemand : (t.constructDemand s args).call? = some (.call b.executable none args) := by
      rw [Overloads.constructDemand, hfind]
      rfl
    rw [hdemand] at honce
    refine ⟨fun e he => ?_, fun hnone => absurd hnone hsome, fun habsent => ?_,
      fun hnone => absurd hnone hsome⟩
    · obtain rfl : Binding.ofExecutable e = b := by
        rw [← Option.some.injEq, ← hfind]
        exact ((ht.found_iff s _).2 ⟨e, he, rfl⟩).symm
      exact honce
    · -- what a constructor that is there comes to is something, or the host's failure
      have hdeclined : isDeclined (construct host owner t s args state).1 = true := by
        rw [habsent]
        rfl
      cases honce.declined_iff.1 hdeclined

end Member

end ScriptSurface
