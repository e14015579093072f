/-
  Keyring.Proofs.Registry.History
  ────────────────────────────────
  **THE ENTRIES OF A REGISTRY ARE ITS HISTORY.**

  The history of a run is the list of the calls that succeeded.  It says
  all there is to know about the entries: each addition has left its entry
  behind, just as it was given, unless the name was removed later.

      history   — the calls of a run that succeed, in their order
      standing  — the entries that a history leaves

  The registry itself is a list with a first-match lookup, from which one
  place is taken out.  It comes to the same since the names stay distinct:
  what is taken out is all there is of that name.

  Main results:
    * `perform_eq_ok`  — what each call has done if it succeeds;
    * `entries_run`    — the entries after a run, from any sound registry;
    * `entries_determined_by_history` — from the empty one, with what a
      lookup gives.
-/
import Keyring.Proofs.Registry.Calls

namespace Keyring

open Text (isBlank)

/-! ## §1. Histories. -/

/-- The entry that a call adds, if it is one to add an entry and succeeds. -/
def Call.added? : Call → Option Entry
  | .add name (.ok keyPath) (.ok certificatePath) _ =>
    some ⟨name, .keyPair ⟨keyPath, certificatePath⟩⟩
  | .addPlugin _ name key _ => some ⟨name, .pluginKey key⟩
  | _ => none

/-- The name that a call removes, if it is one to remove an entry and succeeds. -/
def Call.removed? : Call → Option String
  | .remove name => some name
  | _ => none

namespace Registry

/-- The calls that succeed when they are made one after another. -/
def history (r : Registry) : List Call → List Call
  | [] => []
  | call :: calls =>
    match call.perform r with
    | .ok changed => call :: changed.history calls
    | .error _ => r.history calls

end Registry

/-- Some call of a history removes this name. -/
def removes (history : List Call) (name : String) : Bool :=
  history.any fun call => call.removed? == some name

/-- The entries that a history leaves: one for each addition that no removal of its name
follows. -/
def standing : List Call → List Entry
  | [] => []
  | call :: later =>
    match call.added? with
    | some entry => if removes later entry.name then standing later else entry :: standing later
    | none => standing later

/-- The last addition of a name is the one of this entry, and no removal of the name follows. -/
def LastAdded (history : List Call) (name : String) (entry : Entry) : Prop :=
  ∃ before call after, history = before ++ call :: after
    ∧ call.added? = some entry ∧ entry.name = name
    ∧ (∀ later ∈ after, ∀ other, later.added? = some other → other.name ≠ name)
    ∧ ∀ later ∈ after, later.removed? ≠ some name

/-! ## §2. What a call has done. -/

namespace Registry

/-- What each of the four calls has done to a registry if it has succeeded. -/
inductive Performed (r : Registry) : Call → Registry → Prop where
  | add (name keyPath certificatePath : String) (makeDefault : Bool) (fresh : name ∉ r.names) :
      Performed r (.add name (.ok keyPath) (.ok certificatePath) makeDefault)
        (r.push ⟨name, .keyPair ⟨keyPath, certificatePath⟩⟩ makeDefault)
  | addPlugin (name : String) (key : PluginKey) (makeDefault : Bool) (fresh : name ∉ r.names) :
      Performed r (.addPlugin false name key makeDefault)
        (r.push ⟨name, .pluginKey key⟩ makeDefault)
  | updateDefault (name : String) (known : name ∈ r.names) :
      Performed r (.updateDefault name) { r with defaultName := some name }
  | remove (name : String) (known : name ∈ r.names) :
      Performed r (.remove name) (r.without name)

/-- **What each call has done if it succeeds.** -/
theorem perform_eq_ok {call : Call} {r r' : Registry} (h : call.perform r = .ok r') :
    r.Performed call r' := by
  cases call with
  | add name key certificate makeDefault =>
      obtain ⟨keyPath, certificatePath, rfl, rfl, -, fresh, rfl⟩ := add_cases h
      exact .add name keyPath certificatePath makeDefault fresh
  | addPlugin cancelled name key makeDefault =>
      obtain ⟨rfl, -, fresh, -, rfl⟩ := addPlugin_cases h
      exact .addPlugin name key makeDefault fresh
  | updateDefault name =>
      obtain ⟨entry, hget, rfl⟩ := map_eq_ok h
      obtain ⟨-, hmem, rfl⟩ := get_eq_ok hget
      exact .updateDefault entry.name (List.mem_map_of_mem hmem)
  | remove name =>
      obtain ⟨result, hremove, rfl⟩ := map_eq_ok h
      obtain ⟨entry, hget, rfl⟩ := map_eq_ok hremove
      obtain ⟨-, hmem, rfl⟩ := get_eq_ok hget
      exact .remove entry.name (List.mem_map_of_mem hmem)

/-- Among distinct names, taking out the first of a name is taking out all of it. -/
theorem eraseP_eq_filter (name : String) {entries : List Entry}
    (distinct : (entries.map Entry.name).Nodup) :
    entries.eraseP (fun entry => entry.name == name)
      = entries.filter fun entry => entry.name != name := by
  induction entries with
  | nil => rfl
  | cons entry entries ih =>
      rw [List.map_cons, List.nodup_cons] at distinct
      obtain ⟨hfresh, hrest⟩ := distinct
      by_cases hname : entry.name = name
      · -- the entry found is the only one, so nothing else of the list is taken out
        have hothers : ∀ other ∈ entries, (other.name != name) = true := by
          intro other hother
          have : other.name ≠ entry.name :=
            fun heq => hfresh (heq ▸ List.mem_map_of_mem hother)
          simpa [← hname] using this
        rw [List.eraseP_cons_of_pos (by simpa using hname),
          List.filter_cons_of_neg (by simpa using hname), List.filter_eq_self.2 hothers]
      · rw [List.eraseP_cons_of_neg (by simpa using hname),
          List.filter_cons_of_pos (by simpa using hname), ih hrest]

/-! ## §3. The entries after a run. -/

theorem removes_cons (call : Call) (history : List Call) (name : String) :
    removes (call :: history) name = ((call.removed? == some name) || removes history name) := rfl

theorem standing_cons_of_added {call : Call} {entry : Entry} (h : call.added? = some entry)
    (later : List Call) :
    standing (call :: later)
      = (if removes later entry.name then [] else [entry]) ++ standing later := by
  rw [standing, h]
  show (if removes later entry.name = true then standing later else entry :: standing later) = _
  split <;> rfl

theorem standing_cons_of_not_added {call : Call} (h : call.added? = none) (later : List Call) :
    standing (call :: later) = standing later := by
  rw [standing, h]

/-- A call that has added an entry: what was there stands as it would without it, and the entry
stands behind it unless it is removed later. -/
theorem filter_push {r : Registry} {entry : Entry} {makeDefault : Bool} {call : Call}
    (hadded : call.added? = some entry) (hremoved : call.removed? = none) (later : List Call) :
    (r.push entry makeDefault).entries.filter (fun e => !removes later e.name) ++ standing later
      = r.entries.filter (fun e => !removes (call :: later) e.name)
        ++ standing (call :: later) := by
  have hsame : ∀ name, removes (call :: later) name = removes later name := by
    intro name
    rw [removes_cons, hremoved]
    rfl
  rw [standing_cons_of_added hadded]
  simp only [hsame]
  show (r.entries ++ [entry]).filter _ ++ _ = _
  rw [List.filter_append, List.append_assoc]
  congr 2
  by_cases h : removes later entry.name = true
  · simp [h]
  · simp [h]

/-- **The entries after a run: those from before that no later removal names, and those that the
history leaves.** -/
theorem entries_run {r : Registry} (h : r.Sound) (calls : List Call) :
    (r.run calls).entries
      = r.entries.filter (fun entry => !removes (r.history calls) entry.name)
        ++ standing (r.history calls) := by
  induction calls generalizing r with
  | nil => simp [run, history, removes, standing]
  | cons call calls ih =>
      show ((r.after call).run calls).entries = _
      unfold Registry.after history
      cases hcall : call.perform r with
      -- a call that fails is no part of the history and leaves the registry as it was
      | error e => exact ih h
      | ok changed =>
          show (changed.run calls).entries
            = r.entries.filter (fun entry => !removes (call :: changed.history calls) entry.name)
              ++ standing (call :: changed.history calls)
          rw [ih (h.perform hcall)]
          cases perform_eq_ok hcall with
          | add name keyPath certificatePath makeDefault fresh =>
              exact filter_push rfl rfl _
          | addPlugin name key makeDefault fresh => exact filter_push rfl rfl _
          | updateDefault name known => rfl
          | remove name known =>
              -- the first of the name is taken out, which is all of it
              rw [standing_cons_of_not_added rfl]
              congr 1
              show (r.entries.eraseP _).filter _ = _
              rw [eraseP_eq_filter name h.distinct, List.filter_filter]
              refine List.filter_congr fun entry _ => ?_
              have hsame : ((Call.remove name).removed? == some entry.name)
                  = (entry.name == name) := by
                simp [Call.removed?, Bool.beq_comm]
              rw [removes_cons, hsame, Bool.not_or, Bool.and_comm]
              rfl

/-! ## §4. What a history leaves. -/

theorem removes_eq_false_iff (history : List Call) (name : String) :
    removes history name = false ↔ ∀ call ∈ history, call.removed? ≠ some name := by
  simp [removes]

/-- The entries that stand after two parts of a history: those of the first part that the second
does not remove, and those of the second. -/
theorem standing_append (front back : List Call) :
    standing (front ++ back)
      = (standing front).filter (fun entry => !removes back entry.name) ++ standing back := by
  induction front with
  | nil => rfl
  | cons call front ih =>
      cases hadded : call.added? with
      | none =>
          rw [List.cons_append, standing_cons_of_not_added hadded,
            standing_cons_of_not_added hadded, ih]
      | some entry =>
          rw [List.cons_append, standing_cons_of_added hadded, standing_cons_of_added hadded, ih,
            List.filter_append, List.append_assoc]
          congr 1
          -- the entry stands after the whole just if neither part removes it
          have hparts : removes (front ++ back) entry.name
              = (removes front entry.name || removes back entry.name) := List.any_append
          rw [hparts]
          cases removes front entry.name <;> cases hback : removes back entry.name <;>
            simp [hback]

/-- An entry stands if an addition of it is followed by no removal of its name. -/
theorem mem_standing_iff (history : List Call) (entry : Entry) :
    entry ∈ standing history ↔ ∃ before call after, history = before ++ call :: after
      ∧ call.added? = some entry ∧ ∀ later ∈ after, later.removed? ≠ some entry.name := by
  constructor
  · intro h
    induction history with
    | nil => cases h
    | cons call later ih =>
        -- the entry was added by a later call, or by the one in front
        have hlater : entry ∈ standing later → ∃ before adding after,
            call :: later = before ++ adding :: after
              ∧ adding.added? = some entry ∧ ∀ call ∈ after, call.removed? ≠ some entry.name := by
          intro hmem
          obtain ⟨before, adding, after, rfl, hadding, hkept⟩ := ih hmem
          exact ⟨call :: before, adding, after, rfl, hadding, hkept⟩
        cases hadded : call.added? with
        | none => exact hlater (by rwa [standing_cons_of_not_added hadded] at h)
        | some other =>
            rw [standing_cons_of_added hadded, List.mem_append] at h
            rcases h with h | h
            · split at h
              · cases h
              · next hkept =>
                obtain rfl := List.mem_singleton.1 h
                exact ⟨[], call, later, rfl, hadded,
                  (removes_eq_false_iff _ _).1 (by simpa using hkept)⟩
            · exact hlater h
  · rintro ⟨before, call, after, rfl, hadded, hkept⟩
    rw [standing_append, standing_cons_of_added hadded, (removes_eq_false_iff _ _).2 hkept]
    simp

/-- Where no name stands twice, an addition that no removal follows is the last of its name. -/
theorem mem_standing_iff_lastAdded {history : List Call}
    (distinct : ((standing history).map Entry.name).Nodup) {name : String} {entry : Entry} :
    entry ∈ standing history ∧ entry.name = name ↔ LastAdded history name entry := by
  constructor
  · rintro ⟨hmem, rfl⟩
    obtain ⟨before, call, after, rfl, hadded, hkept⟩ := (mem_standing_iff _ _).1 hmem
    refine ⟨before, call, after, rfl, hadded, rfl, ?_, hkept⟩
    intro later hlater other hother heq
    -- the other entry would stand as well, behind this one and under the same name
    obtain ⟨middle, rest, rfl⟩ := List.append_of_mem hlater
    have hstands : other ∈ standing (middle ++ later :: rest) := by
      refine (mem_standing_iff _ _).2 ⟨middle, later, rest, rfl, hother, ?_⟩
      intro call hcall
      rw [heq]
      exact hkept call (by simp [hcall])
    rw [standing_append, standing_cons_of_added hadded,
      (removes_eq_false_iff _ _).2 hkept] at distinct
    simp only [List.map_append, List.nodup_append] at distinct
    exact distinct.2.1.2.2 entry.name (by simp) other.name (List.mem_map_of_mem hstands) heq.symm
  · rintro ⟨before, call, after, rfl, hadded, rfl, -, hkept⟩
    exact ⟨(mem_standing_iff _ _).2 ⟨before, call, after, rfl, hadded, hkept⟩, rfl⟩

/-! ## §5. Lookups. -/

/-- Among distinct names, the entry of a name is the one that is found. -/
theorem get_eq_ok_iff {r : Registry} (distinct : r.names.Nodup) {name : String}
    (named : isBlank name = false) (entry : Entry) :
    r.get name = .ok entry ↔ entry ∈ r.entries ∧ entry.name = name := by
  constructor
  · exact fun h => (get_eq_ok h).2
  · rintro ⟨hmem, rfl⟩
    obtain ⟨found, hfound, heq, hlook⟩ := r.lookUp_eq_ok (List.mem_map_of_mem hmem)
    rw [get, if_neg (by simp [named]), hlook, List.inj_on_of_nodup_map distinct hfound hmem heq]

/-- What is not found under a name that is not blank is said not to be found. -/
theorem get_eq_keyNotFound {r : Registry} {name : String} (named : isBlank name = false)
    (h : ∀ entry, r.get name ≠ .ok entry) : r.get name = .error (.keyNotFound name) := by
  unfold get lookUp at h ⊢
  rw [if_neg (by simp [named])] at h ⊢
  cases hfind : r.find? name with
  | none => rfl
  | some entry =>
      rw [hfind] at h
      exact absurd rfl (h entry)

/-- **The entries are determined by history.**  After any calls on the empty registry they are
those that the history leaves, in the order of their additions and as they were given; and a
lookup gives the entry last added under the name, if it has not been removed since, and else the
error that there is none. -/
theorem entries_determined_by_history (calls : List Call) :
    (empty.run calls).entries = standing (empty.history calls)
    ∧ ∀ name, isBlank name = false →
      (∀ entry, (empty.run calls).get name = .ok entry
        ↔ LastAdded (empty.history calls) name entry)
      ∧ ((∀ entry, ¬ LastAdded (empty.history calls) name entry) →
        (empty.run calls).get name = .error (.keyNotFound name)) := by
  have hentries : (empty.run calls).entries = standing (empty.history calls) :=
    entries_run sound_empty calls
  have hdistinct : (empty.run calls).names.Nodup := (sound_empty.run calls).distinct
  refine ⟨hentries, fun name named => ?_⟩
  have hget : ∀ entry, (empty.run calls).get name = .ok entry
      ↔ LastAdded (empty.history calls) name entry := by
    intro entry
    rw [get_eq_ok_iff hdistinct named, hentries]
    unfold names at hdistinct
    rw [hentries] at hdistinct
    exact mem_standing_iff_lastAdded hdistinct
  exact ⟨hget, fun h => get_eq_keyNotFound named fun entry hok => h entry ((hget entry).1 hok)⟩

/-- A name is added twice, removed, and added again as a plugin key; another key has no file. -/
def repeatedAdditions : List Call :=
  [.add "a" (.ok "k") (.ok "c") false, .addPlugin false "a" ⟨"1", "p", .empty⟩ true,
    .addPlugin false "b" ⟨"2", "p", .empty⟩ false, .remove "a", .remove "a",
    .add "c" (.error .cancelled) (.ok "c") true, .addPlugin false "a" ⟨"3", "q", .empty⟩ false]

/-- The addition that failed has left nothing, and the one that was removed neither. -/
theorem repeatedAdditions_entries :
    isBlank "a" = false ∧ isBlank "c" = false
      ∧ (empty.run repeatedAdditions).entries
        = [⟨"b", .pluginKey ⟨"2", "p", .empty⟩⟩, ⟨"a", .pluginKey ⟨"3", "q", .empty⟩⟩]
      ∧ (empty.run repeatedAdditions).get "a" = .ok ⟨"a", .pluginKey ⟨"3", "q", .empty⟩⟩
      ∧ (empty.run repeatedAdditions).get "c" = .error (.keyNotFound "c") := by
  have hlaw := entries_determined_by_history repeatedAdditions
  have hhistory : empty.history repeatedAdditions
      = [.add "a" (.ok "k") (.ok "c") false, .addPlugin false "b" ⟨"2", "p", .empty⟩ false,
        .remove "a", .addPlugin false "a" ⟨"3", "q", .empty⟩ false] := rfl
  refine ⟨by decide, by decide, hlaw.1.trans ?_, ?_, ?_⟩
  · rw [hhistory]
    decide
  · refine ((hlaw.2 "a" (by decide)).1 _).2 ?_
    rw [hhistory]
    exact ⟨[.add "a" (.ok "k") (.ok "c") false, .addPlugin false "b" ⟨"2", "p", .empty⟩ false,
      .remove "a"], .addPlugin false "a" ⟨"3", "q", .empty⟩ false, [], rfl, rfl, rfl, by simp,
      by simp⟩
  · refine (hlaw.2 "c" (by decide)).2 fun entry hlast => ?_
    rw [← (hlaw.2 "c" (by decide)).1] at hlast
    have hmem := (get_eq_ok hlast).2
    rw [hlaw.1, hhistory] at hmem
    have hnone : ∀ entry ∈ standing [.add "a" (.ok "k") (.ok "c") false,
        .addPlugin false "b" ⟨"2", "p", .empty⟩ false, .remove "a",
        .addPlugin false "a" ⟨"3", "q", .empty⟩ false], entry.name ≠ "c" := by decide
    exact hnone entry hmem.1 hmem.2

end Registry

end Keyring
