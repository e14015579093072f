/-
  Keyring.Proofs.Registry.Refusals
  ────────────────────────────────
  **WHEN A CALL FAILS, AND WITH WHICH ERROR.**

  A call makes its checks one after another and fails with the error of
  the first that refuses.  So all there is to say of its failures is a
  list of checks:

      FirstOf checks e        — `e` is the error of the first of them that
                                refuses
      Guarded outcome checks  — the outcome is an error just if a check
                                refuses, and then it is that of the first

  Nothing is asked of the registry, which may itself break any rule.

  Main results:
    * `Guarded.unless`, `Guarded.bind` — how checks come before others;
    * `guarded_get`, `guarded_add`, `guarded_addPlugin` — the operations;
    * `updateDefault_eq_error_iff`, `remove_eq_error_iff` — those that fail
      as the lookup does.
-/
import Keyring.Proofs.Registry.Calls

namespace Keyring

open Text (isBlank)

/-! ## §1. Checks in their order. -/

/-- A check, told by the errors with which it refuses; it passes where there is none. -/
abbrev Check := KeyError → Prop

namespace Check

/-- Refuses a fault with its error. -/
def against (fault : Prop) (error : KeyError) : Check := fun e => fault ∧ e = error

/-- Refuses just where something else fails, and with its error. -/
def of (outcome : Except KeyError α) : Check := fun e => outcome = .error e

end Check

/-- The error of the first check that refuses. -/
inductive FirstOf : List Check → KeyError → Prop where
  | here {check : Check} {checks : List Check} {e : KeyError} (refuses : check e) :
      FirstOf (check :: checks) e
  | later {check : Check} {checks : List Check} {e : KeyError} (passes : ∀ other, ¬ check other)
      (refuses : FirstOf checks e) : FirstOf (check :: checks) e

theorem firstOf_nil (e : KeyError) : ¬ FirstOf [] e := nofun

theorem firstOf_cons_iff {check : Check} {checks : List Check} {e : KeyError} :
    FirstOf (check :: checks) e ↔ check e ∨ (∀ other, ¬ check other) ∧ FirstOf checks e := by
  constructor
  · intro h
    cases h with
    | here refuses => exact .inl refuses
    | later passes refuses => exact .inr ⟨passes, refuses⟩
  · rintro (h | ⟨hpasses, h⟩)
    · exact .here h
    · exact .later hpasses h

theorem firstOf_append_iff {checks more : List Check} {e : KeyError} :
    FirstOf (checks ++ more) e
      ↔ FirstOf checks e ∨ (∀ other, ¬ FirstOf checks other) ∧ FirstOf more e := by
  induction checks with
  | nil => simp [firstOf_nil]
  | cons check checks ih =>
      simp only [List.cons_append, firstOf_cons_iff, ih, not_or, not_and, forall_and]
      grind

/-! ## §2. Outcomes that are guarded by checks. -/

/-- The outcome is an error just if a check refuses, and then it is the error of the first. -/
def Guarded (outcome : Except KeyError α) (checks : List Check) : Prop :=
  ∀ e, outcome = .error e ↔ FirstOf checks e

theorem guarded_ok (value : α) : Guarded (.ok value) [] :=
  fun e => ⟨fun h => (by cases h), fun h => absurd h (firstOf_nil e)⟩

theorem guarded_self (outcome : Except KeyError α) : Guarded outcome [.of outcome] := by
  intro e
  simp [firstOf_cons_iff, firstOf_nil, Check.of]

/-- A fault is looked for before whatever else there is to check. -/
theorem Guarded.unless {outcome : Except KeyError α} {checks : List Check} (fault : Prop)
    [Decidable fault] (error : KeyError) (h : Guarded outcome checks) :
    Guarded (if fault then .error error else outcome) (.against fault error :: checks) := by
  intro e
  rw [firstOf_cons_iff]
  by_cases hfault : fault
  · simp [Check.against, hfault, eq_comm]
  · simp [Check.against, hfault, h e]

/-- What guards one step comes before what guards the next. -/
theorem Guarded.bind {first : Except KeyError α} {next : α → Except KeyError β}
    {checks more : List Check} (h : Guarded first checks)
    (hnext : ∀ value, Guarded (next value) more) : Guarded (first >>= next) (checks ++ more) := by
  intro e
  rw [firstOf_append_iff, ← h e]
  cases first with
  | error other =>
      have hrefuses : ¬ ∀ e, ¬ FirstOf checks e := fun hpasses => hpasses other ((h other).1 rfl)
      show Except.error other = .error e ↔ _
      simp [hrefuses]
  | ok value =>
      have hpasses : ∀ e, ¬ FirstOf checks e := fun e he => by cases (h e).2 he
      rw [ok_bind, hnext value e]
      simp [hpasses]

/-- What is made of an outcome is guarded as the outcome is. -/
theorem Guarded.map {outcome : Except KeyError α} {checks : List Check} (h : Guarded outcome checks)
    (f : α → β) : Guarded (outcome.map f) checks := by
  intro e
  rw [← h e]
  cases outcome <;> simp [Except.map]

/-! ## §3. The operations. -/

namespace Registry

/-- The name must not be blank. -/
def namedCheck (name : String) : Check := .against (isBlank name = true) .emptyKeyName

/-- No entry may have the name. -/
def freshCheck (r : Registry) (name : String) : Check :=
  .against (∃ entry ∈ r.entries, entry.name = name) (.duplicateKeyName name)

/-- Some entry must have the name. -/
def knownCheck (r : Registry) (name : String) : Check :=
  .against (∀ entry ∈ r.entries, entry.name ≠ name) (.keyNotFound name)

theorem freshCheck_eq (r : Registry) (name : String) :
    r.freshCheck name = .against ((r.find? name).isSome = true) (.duplicateKeyName name) := by
  simp only [freshCheck, find?_isSome_iff, names, List.mem_map]

theorem guarded_checkNewName (r : Registry) (name : String) :
    Guarded (r.checkNewName name) [namedCheck name, r.freshCheck name] := by
  rw [freshCheck_eq]
  exact ((guarded_ok ()).unless _ _).unless _ _

/-- **A lookup fails for a blank name, and then for one that no entry has.** -/
theorem guarded_get (r : Registry) (name : String) :
    Guarded (r.get name) [namedCheck name, r.knownCheck name] := by
  refine Guarded.unless _ _ fun e => ?_
  have hfind : r.find? name = none ↔ ∀ entry ∈ r.entries, entry.name ≠ name := by
    simp [find?]
  rw [firstOf_cons_iff, knownCheck, Check.against, ← hfind, lookUp]
  cases r.find? name with
  | none => simp [firstOf_nil, eq_comm]
  | some entry => simp [firstOf_nil]

/-- **A key pair is refused for its name before its files, and for its key before its
certificate.** -/
theorem guarded_add (r : Registry) (name : String) (key certificate : Except KeyError String)
    (makeDefault : Bool) :
    Guarded ((Call.add name key certificate makeDefault).perform r)
      [namedCheck name, r.freshCheck name, .of key, .of certificate] := by
  rw [perform_add]
  refine (guarded_checkNewName r name).bind fun _ => ?_
  refine (guarded_self key).bind fun keyPath => ?_
  exact (guarded_self certificate).bind fun certificatePath => guarded_ok _

/-- **A plugin key is refused because the caller has given up, and then for a blank name, id or
plugin name, and last for a name that is taken.** -/
theorem guarded_addPlugin (r : Registry) (cancelled : Bool) (name : String) (key : PluginKey)
    (makeDefault : Bool) :
    Guarded (r.addPlugin cancelled name key makeDefault)
      [.against (cancelled = true) .cancelled, namedCheck name,
        .against (isBlank key.id = true) .emptyPluginId,
        .against (isBlank key.pluginName = true) .emptyPluginName, r.freshCheck name] := by
  rw [freshCheck_eq]
  refine Guarded.unless _ _ ?_
  refine Guarded.unless _ _ ?_
  refine Guarded.unless _ _ ?_
  refine Guarded.unless _ _ ?_
  exact (guarded_ok _).unless _ _

theorem updateDefault_eq_error_iff (r : Registry) (name : String) (e : KeyError) :
    r.updateDefault name = .error e ↔ r.get name = .error e :=
  ((guarded_self (r.get name)).map _ e).trans (guarded_self (r.get name) e).symm

theorem remove_eq_error_iff (r : Registry) (name : String) (e : KeyError) :
    r.remove name = .error e ↔ r.get name = .error e :=
  ((guarded_self (r.get name)).map _ e).trans (guarded_self (r.get name) e).symm

end Registry

end Keyring
