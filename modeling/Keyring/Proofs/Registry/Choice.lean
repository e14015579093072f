/-
  Keyring.Proofs.Registry.Choice
  ────────────────────────────────
  **THE DEFAULT OF A REGISTRY IS ITS HISTORY.**

  A call chooses a default if it says so: by choosing an entry, or by adding
  one with the flag.  An addition to a registry without entries chooses too.
  The last choice that succeeds decides: its name is the default, as long as
  no later call has removed it.

      Call.choice?  — the name that a call chooses
      moments       — the history of a run, each call with the registry it
                      was made on, as that decides what an addition chooses

  Main results:
    * `defaultName_of_choice`, `defaultName_of_no_choice` — one call;
    * `defaultName_run_of_no_choice`, `defaultName_run_of_lastChoice` — a
      run, from any registry;
    * `default_determined_by_history` — a run from the empty one, and what
      never touches a default.
-/
import Keyring.Proofs.Registry.History

namespace Keyring

/-! ## §1. Choices. -/

/-- The name of a new entry, if it becomes the default: where that is wished, or where there is no
entry yet. -/
def Registry.chosenByAdding (r : Registry) (name : String) (makeDefault : Bool) : Option String :=
  if makeDefault || r.entries.isEmpty then some name else none

/-- The name that a call makes the default, if it is made on this registry and succeeds. -/
def Call.choice? (r : Registry) : Call → Option String
  | .add name _ _ makeDefault | .addPlugin _ name _ makeDefault =>
    r.chosenByAdding name makeDefault
  | .updateDefault name => some name
  | .remove _ => none

/-- A call that has succeeded, with the registry that it was made on. -/
structure Moment where
  registry : Registry
  call : Call

/-- The name that was chosen. -/
def Moment.choice? (m : Moment) : Option String := m.call.choice? m.registry

/-- The last choice among these moments is the one of this name, and those that came later. -/
def LastChoice (moments : List Moment) (name : String) (later : List Moment) : Prop :=
  ∃ before m, moments = before ++ m :: later
    ∧ m.choice? = some name ∧ ∀ other ∈ later, other.choice? = none

/-- A call that fails, removes what is not the default, or adds a further entry without the
flag. -/
inductive Call.IsAside (r : Registry) : Call → Prop where
  | failed {call : Call} {e : KeyError} (h : call.perform r = .error e) : IsAside r call
  | remove {name : String} (h : r.defaultName ≠ some name) : IsAside r (.remove name)
  | add {name : String} {key certificate : Except KeyError String} (h : r.entries ≠ []) :
      IsAside r (.add name key certificate false)
  | addPlugin {cancelled : Bool} {name : String} {key : PluginKey} (h : r.entries ≠ []) :
      IsAside r (.addPlugin cancelled name key false)

namespace Registry

/-- The calls of a run that succeed, each with the registry that it is made on. -/
def moments (r : Registry) : List Call → List Moment
  | [] => []
  | call :: calls =>
    match call.perform r with
    | .ok changed => ⟨r, call⟩ :: changed.moments calls
    | .error _ => r.moments calls

/-! ## §2. One call. -/

/-- A new entry becomes the default, or leaves it as it is. -/
theorem defaultName_push (r : Registry) (entry : Entry) (makeDefault : Bool) :
    (r.push entry makeDefault).defaultName
      = (r.chosenByAdding entry.name makeDefault).or r.defaultName := by
  unfold chosenByAdding push
  cases makeDefault || r.entries.isEmpty <;> rfl

/-- What a call chooses is the default after it. -/
theorem defaultName_of_choice {r changed : Registry} {call : Call} {name : String}
    (h : call.perform r = .ok changed) (hchoice : call.choice? r = some name) :
    changed.defaultName = some name := by
  cases perform_eq_ok h with
  | add other keyPath certificatePath makeDefault fresh =>
      rw [defaultName_push]
      exact Option.or_eq_some_iff.2 (.inl hchoice)
  | addPlugin other key makeDefault fresh =>
      rw [defaultName_push]
      exact Option.or_eq_some_iff.2 (.inl hchoice)
  | updateDefault other known => exact hchoice
  | remove other known => cases hchoice

/-- A call without a choice leaves the default, unless it removes the name. -/
theorem defaultName_of_no_choice {r changed : Registry} {call : Call}
    (h : call.perform r = .ok changed) (hchoice : call.choice? r = none) (name : String) :
    changed.defaultName = some name ↔ r.defaultName = some name ∧ call.removed? ≠ some name := by
  cases perform_eq_ok h with
  | add other keyPath certificatePath makeDefault fresh =>
      have hnone : r.chosenByAdding other makeDefault = none := hchoice
      rw [defaultName_push, hnone]
      simp [Call.removed?]
  | addPlugin other key makeDefault fresh =>
      have hnone : r.chosenByAdding other makeDefault = none := hchoice
      rw [defaultName_push, hnone]
      simp [Call.removed?]
  | updateDefault other known => cases hchoice
  | remove other known =>
      show (if r.isDefault other = true then none else r.defaultName) = _ ↔ _
      -- either the default is what is removed, or the name of another entry
      by_cases hdefault : r.defaultName = some other
      · simp [isDefault, hdefault, Call.removed?]
      · simp only [isDefault, beq_iff_eq, hdefault, if_false, Call.removed?]
        constructor
        · intro hname
          exact ⟨hname, fun heq => hdefault (hname.trans heq.symm)⟩
        · exact fun hname => hname.1

/-! ## §3. Runs. -/

section

variable {r changed : Registry} {call : Call} {calls : List Call}

theorem run_cons_of_ok (h : call.perform r = .ok changed) (calls : List Call) :
    r.run (call :: calls) = changed.run calls := by
  show (r.after call).run calls = _
  rw [Registry.after, h]

theorem run_cons_of_error {e : KeyError} (h : call.perform r = .error e) (calls : List Call) :
    r.run (call :: calls) = r.run calls := by
  show (r.after call).run calls = _
  rw [Registry.after, h]

theorem moments_cons_of_ok (h : call.perform r = .ok changed) (calls : List Call) :
    r.moments (call :: calls) = ⟨r, call⟩ :: changed.moments calls := by
  rw [moments, h]

theorem moments_cons_of_error {e : KeyError} (h : call.perform r = .error e) (calls : List Call) :
    r.moments (call :: calls) = r.moments calls := by
  rw [moments, h]

/-- Without a choice, a default stays until its name is removed. -/
theorem defaultName_run_iff_of_no_choice (h : ∀ m ∈ r.moments calls, m.choice? = none)
    (name : String) :
    (r.run calls).defaultName = some name
      ↔ r.defaultName = some name ∧ ∀ m ∈ r.moments calls, m.call.removed? ≠ some name := by
  induction calls generalizing r with
  | nil => simp [run, moments]
  | cons call calls ih =>
      cases hcall : call.perform r with
      | error e =>
          rw [moments_cons_of_error hcall] at h ⊢
          rw [run_cons_of_error hcall, ih h]
      | ok changed =>
          rw [moments_cons_of_ok hcall, List.forall_mem_cons] at h
          rw [moments_cons_of_ok hcall, run_cons_of_ok hcall, List.forall_mem_cons, ih h.2,
            defaultName_of_no_choice hcall h.1, and_assoc]

/-- **Without a choice, a default is what it was, or none if its name has been removed.** -/
theorem defaultName_run_of_no_choice (h : ∀ m ∈ r.moments calls, m.choice? = none) {name : String}
    (hname : r.defaultName = some name) :
    (r.run calls).defaultName
      = if removes ((r.moments calls).map Moment.call) name then none else some name := by
  have hrun := defaultName_run_iff_of_no_choice h
  have hremoves : removes ((r.moments calls).map Moment.call) name = false
      ↔ ∀ m ∈ r.moments calls, m.call.removed? ≠ some name := by
    rw [removes_eq_false_iff, List.forall_mem_map]
  split
  · next hgone =>
    -- any name that were left would be the old one, which is gone
    refine Option.eq_none_iff_forall_ne_some.2 fun other hother => ?_
    obtain ⟨hsame, hkept⟩ := (hrun other).1 hother
    obtain rfl : name = other := Option.some.inj (hname.symm.trans hsame)
    rw [hremoves.2 hkept] at hgone
    cases hgone
  · next hkept => exact (hrun name).2 ⟨hname, hremoves.1 (by simpa using hkept)⟩

/-- **The last choice of a run is the default, or there is none if its name has been removed
since.** -/
theorem defaultName_run_of_lastChoice {name : String} {later : List Moment}
    (h : LastChoice (r.moments calls) name later) :
    (r.run calls).defaultName
      = if removes (later.map Moment.call) name then none else some name := by
  -- on the calls up to the last choice; after it there is none
  induction calls generalizing r with
  | nil =>
      obtain ⟨before, m, hsplit, -⟩ := h
      exact absurd hsplit (by simp [moments])
  | cons call calls ih =>
      cases hcall : call.perform r with
      | error e =>
          rw [moments_cons_of_error hcall] at h
          rw [run_cons_of_error hcall, ih h]
      | ok changed =>
          rw [moments_cons_of_ok hcall] at h
          rw [run_cons_of_ok hcall]
          obtain ⟨before, m, hsplit, hchoice, hlater⟩ := h
          cases before with
          | nil =>
              obtain ⟨rfl, rfl⟩ := List.cons.inj hsplit
              exact defaultName_run_of_no_choice hlater (defaultName_of_choice hcall hchoice)
          | cons first before =>
              exact ih ⟨before, m, (List.cons.inj hsplit).2, hchoice, hlater⟩

end

/-! ## §4. What never touches a default. -/

/-- A call aside leaves the default as it is. -/
theorem defaultName_after_aside {r : Registry} {call : Call} (h : call.IsAside r) :
    (r.after call).defaultName = r.defaultName := by
  unfold Registry.after
  cases hcall : call.perform r with
  | error e => rfl
  | ok changed =>
      have hkeeps : call.choice? r = none ∧ ∀ name, r.defaultName = some name →
          call.removed? ≠ some name := by
        cases h with
        | failed herror => rw [hcall] at herror; cases herror
        | remove hother =>
            refine ⟨rfl, fun name hname heq => hother ?_⟩
            rw [hname, ← heq]
            rfl
        | add hentries => simp [Call.choice?, chosenByAdding, Call.removed?, hentries]
        | addPlugin hentries => simp [Call.choice?, chosenByAdding, Call.removed?, hentries]
      refine Option.ext fun name => ?_
      rw [defaultName_of_no_choice hcall hkeeps.1]
      exact ⟨fun hname => hname.1, fun hname => ⟨hname, hkeeps.2 name hname⟩⟩

theorem run_append_singleton (r : Registry) (calls : List Call) (call : Call) :
    r.run (calls ++ [call]) = (r.run calls).after call := by
  simp [run]

/-- **The default is determined by history.**  After any calls on the empty registry it is the name
of the last choice, unless a later call has removed it; without a choice there is none.  A call that
fails, the removal of another key, and an addition without the flag to a registry with entries leave
it as it is, so that no removed default comes back by these. -/
theorem default_determined_by_history (calls : List Call) :
    (∀ name later, LastChoice (empty.moments calls) name later →
      (empty.run calls).defaultName
        = if removes (later.map Moment.call) name then none else some name)
    ∧ ((∀ m ∈ empty.moments calls, m.choice? = none) → (empty.run calls).defaultName = none)
    ∧ ∀ call : Call, call.IsAside (empty.run calls) →
      (empty.run (calls ++ [call])).defaultName = (empty.run calls).defaultName := by
  refine ⟨fun name later h => defaultName_run_of_lastChoice h, fun h => ?_, fun call h => ?_⟩
  · refine Option.eq_none_iff_forall_ne_some.2 fun name hname => ?_
    cases ((defaultName_run_iff_of_no_choice h name).1 hname).1
  · rw [run_append_singleton]
    exact defaultName_after_aside h

/-- The second key is chosen, removed and added again without the flag; what fails is not noted. -/
def lostChoice : List Call :=
  [.addPlugin false "a" ⟨"1", "p", .empty⟩ false, .add "b" (.ok "k") (.ok "c") true,
    .updateDefault "d", .remove "b", .remove "b", .addPlugin false "b" ⟨"2", "p", .empty⟩ false]

/-- The calls after the choice of the second key that succeed. -/
def afterLostChoice : List Moment :=
  [⟨⟨some "b", [⟨"a", .pluginKey ⟨"1", "p", .empty⟩⟩, ⟨"b", .keyPair ⟨"k", "c"⟩⟩]⟩, .remove "b"⟩,
    ⟨⟨none, [⟨"a", .pluginKey ⟨"1", "p", .empty⟩⟩]⟩,
      .addPlugin false "b" ⟨"2", "p", .empty⟩ false⟩]

/-- The last choice is the one of the second key, and its removal is not undone. -/
theorem lostChoice_default :
    LastChoice (empty.moments (lostChoice.take 3)) "b" []
      ∧ (empty.run (lostChoice.take 3)).defaultName = some "b"
      ∧ LastChoice (empty.moments lostChoice) "b" afterLostChoice
      ∧ (empty.run lostChoice).names = ["a", "b"]
      ∧ (empty.run lostChoice).defaultName = none := by
  have hchosen : LastChoice (empty.moments (lostChoice.take 3)) "b" [] :=
    ⟨[_], _, rfl, rfl, by simp⟩
  have hlost : LastChoice (empty.moments lostChoice) "b" afterLostChoice := by
    refine ⟨[_], _, rfl, rfl, ?_⟩
    simp [afterLostChoice, Moment.choice?, Call.choice?, chosenByAdding]
  refine ⟨hchosen, (default_determined_by_history _).1 "b" [] hchosen, hlost, by decide, ?_⟩
  exact (default_determined_by_history lostChoice).1 "b" afterLostChoice hlost

end Registry

end Keyring
