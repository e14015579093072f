/-
  Keyring.Proofs.Registry.Violations
  ────────────────────────────────
  **WHICH BROKEN RULE IS REPORTED.**

  A registry may break several rules at once, and only one is reported:
  the first in a fixed order.  `Registry.Breaks` says which one that is,
  without any scan.

      blank name  >  repeated name  >  blank default  >  unknown default

  Of repeated names it is the one whose repetition comes first, which is
  not always the first name that has a copy: in `a b b a` it is `b`.

  Main results:
    * `firstRepeated?_eq_some_iff` — the scan for a repetition;
    * `validate_eq_error_iff` — what is reported;
    * `validate_reports` — what is accepted, and what is reported of the
      rest.
-/
import Keyring.Proofs.Registry.Rules
import Keyring.Proofs.Text.Blank

namespace Keyring

open Text (isBlank isWhiteSpace)

/-! ## §1. The first repetition. -/

/-- The names repeat themselves for the first time at this place, with this name. -/
structure RepeatsFirst (names : List String) (i : Nat) (name : String) : Prop where
  here : names[i]? = some name
  /-- The name stands at an earlier place as well. -/
  again : ∃ j < i, names[j]? = some name
  /-- No earlier place repeats one before it. -/
  first : ∀ k < i, ∀ j < k, names[j]? ≠ names[k]?

/-- The scan gives the name at which what has been seen and what is still to come first repeat
themselves. -/
theorem firstRepeated?_go_eq_some_iff (name : String) (names : List String) :
    ∀ seen : List String, seen.Nodup →
      (firstRepeated?.go seen names = some name ↔ ∃ before rest, names = before ++ name :: rest
        ∧ (seen.reverse ++ before).Nodup ∧ name ∈ seen.reverse ++ before) := by
  induction names with
  | nil =>
      intro seen _
      simp [firstRepeated?.go]
  | cons other names ih =>
      intro seen hseen
      rw [firstRepeated?.go]
      by_cases hmem : other ∈ seen
      · -- the scan ends here, and any later repetition would have this one before it
        rw [if_pos (by simpa using hmem)]
        constructor
        · intro h
          cases h
          exact ⟨[], names, rfl, by simpa using hseen, by simpa using hmem⟩
        · rintro ⟨before, rest, hsplit, hnodup, -⟩
          cases before with
          | nil =>
              obtain ⟨rfl, -⟩ := List.cons.inj hsplit
              rfl
          | cons first before =>
              obtain ⟨rfl, -⟩ := List.cons.inj hsplit
              rw [List.nodup_append] at hnodup
              exact absurd rfl (hnodup.2.2 other (by simpa using hmem) other (by simp))
      · rw [if_neg (by simpa using hmem), ih (other :: seen) (List.nodup_cons.2 ⟨hmem, hseen⟩)]
        constructor
        · rintro ⟨before, rest, rfl, hnodup, hname⟩
          refine ⟨other :: before, rest, rfl, ?_, ?_⟩
          · simpa using hnodup
          · simpa using hname
        · rintro ⟨before, rest, hsplit, hnodup, hname⟩
          cases before with
          | nil =>
              obtain ⟨rfl, rfl⟩ := List.cons.inj hsplit
              exact absurd (by simpa using hname) hmem
          | cons first before =>
              obtain ⟨rfl, rfl⟩ := List.cons.inj hsplit
              exact ⟨before, rest, rfl, by simpa using hnodup, by simpa using hname⟩

/-- The first repetition stands behind names that differ, and its own is one of them. -/
theorem repeatsFirst_append_iff (before : List String) (name : String) (rest : List String) :
    RepeatsFirst (before ++ name :: rest) before.length name ↔ before.Nodup ∧ name ∈ before := by
  have hbefore : ∀ k < before.length, (before ++ name :: rest)[k]? = before[k]? :=
    fun k hk => List.getElem?_append_left hk
  constructor
  · rintro ⟨-, ⟨j, hj, hname⟩, hfirst⟩
    rw [hbefore j hj] at hname
    refine ⟨List.nodup_iff_getElem?_ne_getElem?.2 fun j k hjk hk => ?_, List.mem_of_getElem? hname⟩
    rw [← hbefore j (by omega), ← hbefore k hk]
    exact hfirst k hk j hjk
  · rintro ⟨hnodup, hname⟩
    obtain ⟨j, hj, rfl⟩ := List.getElem_of_mem hname
    refine ⟨by simp, ⟨j, hj, ?_⟩, fun k hk j hjk => ?_⟩
    · rw [hbefore j hj, List.getElem?_eq_getElem hj]
    · rw [hbefore j (by omega), hbefore k hk]
      exact List.nodup_iff_getElem?_ne_getElem?.1 hnodup j k hjk hk

/-- **The scan gives the name of the first repetition.** -/
theorem firstRepeated?_eq_some_iff (names : List String) (name : String) :
    firstRepeated? names = some name ↔ ∃ i, RepeatsFirst names i name := by
  rw [firstRepeated?, firstRepeated?_go_eq_some_iff name names [] List.nodup_nil]
  constructor
  · rintro ⟨before, rest, rfl, hbefore⟩
    exact ⟨before.length, (repeatsFirst_append_iff before name rest).2 hbefore⟩
  · rintro ⟨i, h⟩
    obtain ⟨before, rest, rfl, rfl⟩ : ∃ before rest, names = before ++ name :: rest
        ∧ before.length = i := by
      obtain ⟨hi, rfl⟩ := List.getElem?_eq_some_iff.1 h.here
      refine ⟨names.take i, names.drop (i + 1), ?_, List.length_take_of_le (by omega)⟩
      rw [← List.drop_eq_getElem_cons hi, List.take_append_drop]
    exact ⟨before, rest, rfl, (repeatsFirst_append_iff before name rest).1 h⟩

namespace Registry

/-! ## §2. The first broken rule. -/

/-- The rule that is reported as broken: the first one, in the order in which they are checked. -/
inductive Breaks (r : Registry) : Violation → Prop where
  | emptyKeyName {name : String} (known : name ∈ r.names) (blank : isBlank name = true) :
      Breaks r .emptyKeyName
  | duplicateName {name : String} {i : Nat} (named : ∀ name ∈ r.names, isBlank name = false)
      (repeats : RepeatsFirst r.names i name) : Breaks r (.duplicateName name)
  | emptyDefault {name : String} (named : ∀ name ∈ r.names, isBlank name = false)
      (distinct : r.names.Nodup) (chosen : r.defaultName = some name)
      (blank : isBlank name = true) : Breaks r .emptyDefault
  | invalidDefault {name : String} (named : ∀ name ∈ r.names, isBlank name = false)
      (distinct : r.names.Nodup) (chosen : r.defaultName = some name)
      (solid : isBlank name = false) (unknown : name ∉ r.names) :
      Breaks r (.invalidDefault name)

theorem any_isBlank_eq_false_iff (names : List String) :
    names.any isBlank = false ↔ ∀ name ∈ names, isBlank name = false := by
  simp only [List.any_eq_false, Bool.not_eq_true]

/-- Names that are not blank and differ leave the rule for the default. -/
theorem validate_eq_validateDefault {r : Registry} (named : ∀ name ∈ r.names, isBlank name = false)
    (distinct : r.names.Nodup) : r.validate = r.validateDefault := by
  simp only [validate, (any_isBlank_eq_false_iff r.names).2 named,
    (firstRepeated?_eq_none_iff r.names).2 distinct, Bool.false_eq_true, if_false]

/-- What the rule for the default reports, where it is the one that is left. -/
theorem breaks_of_validateDefault {r : Registry} {violation : Violation}
    (named : ∀ name ∈ r.names, isBlank name = false) (distinct : r.names.Nodup)
    (h : r.validateDefault = .error violation) : r.Breaks violation := by
  unfold validateDefault at h
  split at h
  · cases h
  · next name hchosen =>
    split at h
    · next hblank =>
      cases h
      exact .emptyDefault named distinct hchosen hblank
    · next hsolid =>
      split at h
      · cases h
      · next hunknown =>
        cases h
        exact .invalidDefault named distinct hchosen (by simpa using hsolid)
          (by simpa using hunknown)

/-- **What is reported is the rule that is broken first.** -/
theorem validate_eq_error_iff (r : Registry) (violation : Violation) :
    r.validate = .error violation ↔ r.Breaks violation := by
  constructor
  · intro h
    cases hblank : r.names.any isBlank with
    | true =>
        obtain ⟨name, hknown, hname⟩ := List.any_eq_true.1 hblank
        rw [validate, if_pos hblank] at h
        cases h
        exact .emptyKeyName hknown hname
    | false =>
        have hnamed := (any_isBlank_eq_false_iff r.names).1 hblank
        cases hrepeated : firstRepeated? r.names with
        | some name =>
            obtain ⟨i, hrepeats⟩ := (firstRepeated?_eq_some_iff r.names name).1 hrepeated
            simp only [validate, hblank, hrepeated, Bool.false_eq_true, if_false] at h
            cases h
            exact .duplicateName hnamed hrepeats
        | none =>
            have hdistinct := (firstRepeated?_eq_none_iff r.names).1 hrepeated
            rw [validate_eq_validateDefault hnamed hdistinct] at h
            exact breaks_of_validateDefault hnamed hdistinct h
  · intro h
    cases h with
    | emptyKeyName known blank =>
        rw [validate, if_pos (List.any_eq_true.2 ⟨_, known, blank⟩)]
    | @duplicateName name i named repeats =>
        simp only [validate, (any_isBlank_eq_false_iff r.names).2 named,
          (firstRepeated?_eq_some_iff r.names name).2 ⟨i, repeats⟩, Bool.false_eq_true, if_false]
    | emptyDefault named distinct chosen blank =>
        rw [validate_eq_validateDefault named distinct]
        simp only [validateDefault, chosen, blank, if_true]
    | invalidDefault named distinct chosen solid unknown =>
        rw [validate_eq_validateDefault named distinct]
        simp only [validateDefault, chosen, solid, unknown, List.contains_eq_mem, decide_false,
          Bool.false_eq_true, if_false]

/-- **What is accepted, and what is reported of the rest.**  A registry is accepted exactly if
something stands in every name, no two names are equal, and the default is the name of an entry;
any other is refused for the first rule that it breaks. -/
theorem validate_reports (r : Registry) :
    (r.validate = .ok () ↔
      (∀ entry ∈ r.entries, ∃ c ∈ entry.name.toList, isWhiteSpace c = false)
      ∧ (r.entries.map Entry.name).Nodup
      ∧ (r.defaultName = none ∨ ∃ entry ∈ r.entries, r.defaultName = some entry.name))
    ∧ ∀ violation, r.validate = .error violation ↔ r.Breaks violation := by
  refine ⟨?_, r.validate_eq_error_iff⟩
  have hnamed : (∀ name ∈ r.names, isBlank name = false)
      ↔ ∀ entry ∈ r.entries, ∃ c ∈ entry.name.toList, isWhiteSpace c = false := by
    simp only [names, List.forall_mem_map, Text.isBlank_eq_false_iff]
  have hchosen : (∀ name, r.defaultName = some name → name ∈ r.names)
      ↔ r.defaultName = none ∨ ∃ entry ∈ r.entries, r.defaultName = some entry.name := by
    cases r.defaultName with
    | none => simp
    | some name => simp [names, eq_comm]
  rw [validate_eq_ok_iff, ← hnamed, ← hchosen]
  exact ⟨fun h => ⟨h.named, h.distinct, h.chosen⟩, fun h => ⟨h.1, h.2.1, h.2.2⟩⟩

/-- The repetition of `b` comes before that of `a`, and both before the unknown default. -/
example : validate ⟨some "z", ["a", "b", "b", "a"].map fun name => ⟨name, .keyPair ⟨"k", "c"⟩⟩⟩
    = .error (.duplicateName "b") := by decide

end Registry

end Keyring
