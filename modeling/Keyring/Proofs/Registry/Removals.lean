/-
  Keyring.Proofs.Registry.Removals
  ────────────────────────────────
  **REMOVING SEVERAL NAMES, IN ANY ORDER.**

  A removal takes out the first entry of a name.  What comes of it depends
  only on whether the name is blank and whether an entry has it, and the
  removal of another name changes neither.  So several removals can be
  said at once, without an order:

      r.IsTaken names place — the entry in this place is the first of its
                              name, and that is one of the names
      r.strip names         — all other entries, in their order

  The registry may break any rule: a name may occur several times or be
  blank, and no entry need have the default.

  Main results:
    * `run_removals` — one removal after another comes to `strip`;
    * `removals_in_any_order` — the answers and the registry that is left.
-/
import Keyring.Proofs.Registry.Calls

namespace Keyring

open Text (isBlank)

namespace Registry

variable {r : Registry} {names : List String} {name other : String}

/-! ## §1. One removal. -/

/-- The name is not blank, and an entry has it. -/
def CanLose (r : Registry) (name : String) : Prop := isBlank name = false ∧ name ∈ r.names

instance : DecidablePred r.CanLose := fun _ => inferInstanceAs (Decidable (_ ∧ _))

/-- What a removal answers. -/
theorem remove_answer (r : Registry) (name : String) :
    (r.remove name).map (·.1) = if isBlank name then .error .emptyKeyName
      else if name ∈ r.names then .ok [name] else .error (.keyNotFound name) := by
  unfold remove get
  split
  · rfl
  · split
    · next hmem =>
      obtain ⟨entry, -, hname, hlook⟩ := r.lookUp_eq_ok hmem
      rw [hlook]
      show Except.ok [entry.name] = _
      rw [hname]
    · next hmem =>
      have hnone : r.find? name = none := by
        rwa [← find?_isSome_iff, Option.not_isSome_iff_eq_none] at hmem
      rw [lookUp, hnone]
      rfl

/-- What a removal leaves. -/
theorem after_remove (r : Registry) (name : String) :
    r.after (.remove name) = if r.CanLose name then r.without name else r := by
  have hperform : (Call.remove name).perform r = (r.get name).map fun _ => r.without name := by
    show ((r.get name).map _).map _ = _
    cases r.get name <;> rfl
  unfold after
  rw [hperform]
  cases hget : r.get name with
  | ok entry =>
      obtain ⟨hsolid, hmem, rfl⟩ := get_eq_ok hget
      rw [if_pos ⟨hsolid, List.mem_map_of_mem hmem⟩]
      rfl
  | error e =>
      rw [if_neg]
      · rfl
      · rintro ⟨hsolid, hmem⟩
        obtain ⟨entry, -, -, hlook⟩ := r.lookUp_eq_ok hmem
        rw [get, hsolid] at hget
        rw [show r.lookUp name = .error e from hget] at hlook
        cases hlook

/-- Only the first entry of the name is gone, if the name is not blank. -/
theorem entries_after_remove (r : Registry) (name : String) :
    (r.after (.remove name)).entries = if isBlank name then r.entries
      else r.entries.eraseP fun entry => entry.name == name := by
  rw [after_remove]
  by_cases hblank : isBlank name = true
  · rw [if_pos hblank, if_neg fun h => by rw [h.1] at hblank; cases hblank]
  · rw [if_neg hblank]
    split
    · rfl
    · next hlose =>
      refine (List.eraseP_of_forall_not fun entry hmem hname => hlose ?_).symm
      rw [beq_iff_eq] at hname
      exact ⟨by simpa using hblank, List.mem_map.2 ⟨entry, hmem, hname⟩⟩

/-- The default is gone if it is the name, and the name can be removed. -/
theorem defaultName_after_remove (r : Registry) (name : String) :
    (r.after (.remove name)).defaultName
      = r.defaultName.filter fun other => ¬ (other = name ∧ r.CanLose other) := by
  rw [after_remove]
  split
  · next hlose =>
    show (if r.isDefault name then none else r.defaultName) = _
    unfold isDefault
    cases r.defaultName with
    | none => rfl
    | some other =>
        by_cases hother : other = name
        · simp [Option.filter_some, hother, hlose]
        · simp [Option.filter_some, hother]
  · next hlose =>
    cases r.defaultName with
    | none => rfl
    | some other =>
        have hkept : ¬ (other = name ∧ r.CanLose other) := by
          rintro ⟨rfl, h⟩
          exact hlose h
        rw [Option.filter_some, if_pos (decide_eq_true hkept)]

/-- Whether there is another name stays as it was. -/
theorem mem_names_after_remove (hne : other ≠ name) :
    other ∈ (r.after (.remove name)).names ↔ other ∈ r.names := by
  rw [after_remove]
  split
  · exact ⟨fun h => (r.names_without_sublist name).subset h, mem_names_without hne⟩
  · rfl

/-! ## §2. Names that do not disturb each other. -/

theorem run_cons_remove (r : Registry) (name : String) (names : List String) :
    r.run ((name :: names).map .remove) = (r.after (.remove name)).run (names.map .remove) := rfl

theorem mem_names_run_removals (h : other ∉ names) :
    other ∈ (r.run (names.map .remove)).names ↔ other ∈ r.names := by
  induction names generalizing r with
  | nil => rfl
  | cons name names ih =>
      rw [List.mem_cons, not_or] at h
      rw [run_cons_remove, ih h.2, mem_names_after_remove h.1]

/-- **A name is answered as if no other had been removed before.** -/
theorem answer_after_removals (h : name ∉ names) :
    ((r.run (names.map .remove)).remove name).map (·.1) = (r.remove name).map (·.1) := by
  simp only [remove_answer, mem_names_run_removals h]

/-! ## §3. What is left. -/

/-- The entry in this place goes when the names are removed: its name is one of them and not blank,
and no entry before it has the name. -/
def IsTaken (r : Registry) (names : List String) (place : Entry × Nat) : Prop :=
  place.1.name ∈ names ∧ isBlank place.1.name = false ∧ place.1.name ∉ r.names.take place.2

instance : DecidablePred (r.IsTaken names) := fun _ => inferInstanceAs (Decidable (_ ∧ _ ∧ _))

/-- The registry without the first entry of each of these names.  The default goes with them. -/
def strip (r : Registry) (names : List String) : Registry where
  defaultName := r.defaultName.filter fun name => ¬ (name ∈ names ∧ r.CanLose name)
  entries := (r.entries.zipIdx.filter fun place => ¬ r.IsTaken names place).map Prod.fst

/-- The entries without the first of each of these names, one name after another. -/
def pluck (entries : List Entry) (names : List String) : List Entry :=
  names.foldl (fun entries name => entries.eraseP fun entry => entry.name == name) entries

theorem pluck_cons_of_not_mem {entry : Entry} (h : entry.name ∉ names) (entries : List Entry) :
    pluck (entry :: entries) names = entry :: pluck entries names := by
  induction names generalizing entries with
  | nil => rfl
  | cons name names ih =>
      rw [List.mem_cons, not_or] at h
      show pluck ((entry :: entries).eraseP _) names = _
      rw [List.eraseP_cons_of_neg (by simpa using h.1), ih h.2]
      rfl

theorem pluck_cons_of_mem {entry : Entry} (h : entry.name ∈ names) (entries : List Entry) :
    pluck (entry :: entries) names = pluck entries (names.erase entry.name) := by
  induction names generalizing entries with
  | nil => cases h
  | cons name names ih =>
      show pluck ((entry :: entries).eraseP _) names = _
      by_cases hname : entry.name = name
      · rw [List.eraseP_cons_of_pos (by simpa using hname), hname, List.erase_cons_head]
      · rw [List.eraseP_cons_of_neg (by simpa using hname),
          ih (List.mem_of_ne_of_mem hname h), List.erase_cons_tail (by simpa using Ne.symm hname)]
        rfl

/-- What is plucked are the first entries of the names.  Those in front, which have been looked at
before, have left the names that they do not have. -/
theorem pluck_eq_filter (entries front : List Entry) (h : names.Nodup) :
    pluck entries (names.filter (· ∉ front.map Entry.name))
      = ((entries.zipIdx front.length).filter fun place => ¬ (place.1.name ∈ names
          ∧ place.1.name ∉ ((front ++ entries).map Entry.name).take place.2)).map Prod.fst := by
  induction entries generalizing front with
  | nil =>
      show pluck [] _ = []
      unfold pluck
      induction names.filter (· ∉ front.map Entry.name) with
      | nil => rfl
      | cons name names ih => exact ih
  | cons entry entries ih =>
      have htake : ((front ++ entry :: entries).map Entry.name).take front.length
          = front.map Entry.name := by
        rw [List.map_append, ← List.length_map Entry.name, List.take_left]
      -- the names that are left for the other entries
      have hleft : (names.filter (· ∉ front.map Entry.name)).erase entry.name
          = names.filter (· ∉ (front ++ [entry]).map Entry.name) := by
        rw [(h.filter _).erase_eq_filter, List.filter_filter]
        refine List.filter_congr fun name _ => ?_
        rw [List.map_append, Bool.eq_iff_iff]
        simp [-List.mem_map, not_or, and_comm]
      have hrest := ih (front ++ [entry])
      rw [← hleft, List.length_append, List.append_assoc] at hrest
      rw [List.zipIdx_cons, List.filter_cons]
      dsimp only
      rw [htake]
      by_cases hmem : entry.name ∈ names.filter (· ∉ front.map Entry.name)
      · have htaken : entry.name ∈ names ∧ entry.name ∉ front.map Entry.name := by
          simpa using hmem
        rw [pluck_cons_of_mem hmem, if_neg (by simpa using htaken)]
        exact hrest
      · have hkept : ¬ (entry.name ∈ names ∧ entry.name ∉ front.map Entry.name) := by
          simpa using hmem
        rw [List.erase_of_not_mem hmem] at hrest
        rw [pluck_cons_of_not_mem hmem, if_pos (decide_eq_true hkept), List.map_cons, hrest]
        rfl

/-- Removals pluck the names that are not blank. -/
theorem entries_run_removals (r : Registry) (names : List String) :
    (r.run (names.map .remove)).entries = pluck r.entries (names.filter (! isBlank ·)) := by
  induction names generalizing r with
  | nil => rfl
  | cons name names ih =>
      rw [run_cons_remove, ih, entries_after_remove, List.filter_cons]
      cases isBlank name <;> rfl

theorem defaultName_run_removals (h : names.Nodup) :
    (r.run (names.map .remove)).defaultName = (r.strip names).defaultName := by
  induction names generalizing r with
  | nil =>
      show r.defaultName = r.defaultName.filter _
      cases r.defaultName with
      | none => rfl
      | some old => simp [Option.filter_some]
  | cons name names ih =>
      obtain ⟨hfresh, hrest⟩ := List.nodup_cons.1 h
      rw [run_cons_remove, ih hrest]
      show Option.filter _ (r.after (.remove name)).defaultName = Option.filter _ r.defaultName
      rw [defaultName_after_remove, Option.filter_filter]
      cases r.defaultName with
      | none => rfl
      | some old =>
          rw [Option.filter_some, Option.filter_some]
          by_cases hold : old = name
          · simp [hold, hfresh]
          · simp [hold, CanLose, mem_names_after_remove hold]

/-- **One removal after another is all of them at once.** -/
theorem run_removals (r : Registry) (h : names.Nodup) :
    r.run (names.map .remove) = r.strip names := by
  have hentries : (r.run (names.map .remove)).entries = (r.strip names).entries := by
    have hpluck := pluck_eq_filter r.entries [] (h.filter (! isBlank ·))
    simp only [List.map_nil, List.not_mem_nil, not_false_eq_true, decide_true, List.filter_true,
      List.mem_filter, Bool.not_eq_true', and_assoc, List.nil_append, List.length_nil] at hpluck
    rw [entries_run_removals, hpluck]
    rfl
  have hdefault := defaultName_run_removals (r := r) h
  exact congrArg₂ Registry.mk hdefault hentries

/-- It does not count in which order the names are given. -/
theorem strip_of_perm (r : Registry) {order : List String} (hperm : order.Perm names) :
    r.strip order = r.strip names := by
  have htaken : ∀ place, decide (¬ r.IsTaken order place) = decide (¬ r.IsTaken names place) :=
    fun place => decide_eq_decide.2 (by simp only [IsTaken, hperm.mem_iff])
  have hlost : ∀ name, decide (¬ (name ∈ order ∧ r.CanLose name))
      = decide (¬ (name ∈ names ∧ r.CanLose name)) :=
    fun name => decide_eq_decide.2 (by simp only [hperm.mem_iff])
  simp only [strip, htaken, hlost]

/-- **Several names can be removed in any order.**  Each is answered as it would be on its own: the
name, or that it is blank or not found.  In the end the first entry of each name is gone and all
others stand in their order, and the default is as it was unless it was removed. -/
theorem removals_in_any_order (r : Registry) (h : names.Nodup) {order : List String}
    (hperm : order.Perm names) :
    (∀ before name after, order = before ++ name :: after →
      ((r.run (before.map .remove)).remove name).map (·.1)
        = if isBlank name then .error .emptyKeyName
          else if name ∈ r.names then .ok [name] else .error (.keyNotFound name))
    ∧ r.run (order.map .remove) = r.run (names.map .remove)
    ∧ r.run (order.map .remove) = r.strip names := by
  have hdistinct : order.Nodup := hperm.nodup_iff.2 h
  have hleft : r.run (order.map .remove) = r.strip names := by
    rw [run_removals r hdistinct, strip_of_perm r hperm]
  refine ⟨?_, by rw [hleft, run_removals r h], hleft⟩
  rintro before name after rfl
  have hfresh : name ∉ before := fun hmem =>
    (List.nodup_append.1 hdistinct).2.2 name hmem name List.mem_cons_self rfl
  rw [answer_after_removals hfresh, remove_answer]

/-- A name twice, one that is blank, and the first as the default. -/
def crowded : Registry where
  defaultName := some "a"
  entries := [⟨"a", .keyPair ⟨"1", "2"⟩⟩, ⟨" ", .keyPair ⟨"3", "4"⟩⟩, ⟨"b", .keyPair ⟨"5", "6"⟩⟩,
    ⟨"a", .keyPair ⟨"7", "8"⟩⟩]

/-- The blank entry and the second of its name stay, and the default is gone with the first. -/
theorem crowded_removals :
    ((crowded.run [.remove "c", .remove "b"]).remove "a").map (·.1) = .ok ["a"]
      ∧ crowded.run [.remove "c", .remove "b", .remove "a", .remove " "]
        = crowded.run [.remove "a", .remove " ", .remove "b", .remove "c"]
      ∧ crowded.run [.remove "c", .remove "b", .remove "a", .remove " "]
        = ⟨none, [⟨" ", .keyPair ⟨"3", "4"⟩⟩, ⟨"a", .keyPair ⟨"7", "8"⟩⟩]⟩ := by
  have hdistinct : ["a", " ", "b", "c"].Nodup := by decide
  have hperm : ["c", "b", "a", " "].Perm ["a", " ", "b", "c"] := by decide
  obtain ⟨hanswer, hsame, hleft⟩ := removals_in_any_order crowded hdistinct hperm
  exact ⟨hanswer ["c", "b"] "a" [" "] rfl, hsame, hleft.trans (by decide)⟩

end Registry

end Keyring
