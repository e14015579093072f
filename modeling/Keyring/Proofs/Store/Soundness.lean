/-
  Keyring.Proofs.Store.Soundness
  ────────────────────────────────
  **A REGISTRY IS SOUND AT ALL TIMES.**

  What is loaded is sound, every call keeps it so, and a sound registry
  passes the check before saving.  Hence the check in `save` is never what
  stops a request: once the document has been loaded, only the request
  itself or the disk can fail.  And a default that is set is always found.

  Main results:
    * `save_error` — saving a good registry fails on account of the disk
      only;
    * `serve_ne_invalid` — no request on a loaded registry breaks a rule;
    * `sound_at_all_times` — the registry and the store together.
-/
import Keyring.Proofs.Store.Saving

namespace Keyring

open Text (isBlank)

/-! ## §1. The check before saving. -/

/-- Saving a registry that keeps the rules fails on account of the disk only. -/
theorem save_error {s : Store} {r : Registry} (h : r.KeepsRules) {fs : FileSystem} {e : KeyError}
    (he : (runOn (s.save r) fs).1 = .error e) : ∃ cause, e = .io cause := by
  -- the rules are kept, so that one of the file operations is what has failed
  rcases save_eq_error (Prod.ext he rfl) with ⟨violation, hbroken, -⟩ | ⟨-, hcause, -⟩
  · rw [(Registry.validate_eq_ok_iff r).2 h] at hbroken
    cases hbroken
  · exact hcause

/-- What is wrong with a key file is never a broken rule. -/
theorem keyFile_ne_invalid (fs : FileSystem) (p : Path) (violation : Violation) :
    fs.keyFile p ≠ .error (.invalid violation) := by
  rw [keyFile_eq]
  cases p.toString? with
  | none => intro h; cases h
  | some text =>
      cases fs.inspect p with
      | error cause => intro h; cases h
      | ok kind => cases kind <;> (intro h; cases h)

/-- A lookup fails for want of a name or of an entry. -/
theorem get_ne_invalid (r : Registry) (name : String) (violation : Violation) :
    r.get name ≠ .error (.invalid violation) := by
  unfold Registry.get Registry.lookUp
  split
  · simp
  · split <;> simp

theorem resolve_ne_invalid (r : Registry) (name : Option String) (violation : Violation) :
    r.resolve name ≠ .error (.invalid violation) := by
  cases name with
  | some name => exact get_ne_invalid r name violation
  | none =>
      show r.getDefault ≠ _
      unfold Registry.getDefault Registry.lookUp
      split
      · simp
      · split <;> simp

theorem checkNewName_ne_invalid (r : Registry) (name : String) (violation : Violation) :
    r.checkNewName name ≠ .error (.invalid violation) := by
  unfold Registry.checkNewName
  split
  · simp
  · split <;> simp

/-- Only a registry as a whole breaks rules: an operation on it fails for other reasons. -/
theorem respond_ne_invalid (r : Registry) (fs : FileSystem) (q : Request) (violation : Violation) :
    r.respond fs q ≠ .error (.invalid violation) := by
  -- an invalid registry is reported by the checks of whole registries only
  cases q with
  | addKey name key certificate makeDefault =>
      refine bind_ne_error ?_ fun changed h => by cases h
      show (Call.add name (fs.keyFile key) (fs.keyFile certificate) makeDefault).perform r ≠ _
      rw [Registry.perform_add]
      refine bind_ne_error (checkNewName_ne_invalid r name violation) fun _ => ?_
      refine bind_ne_error (keyFile_ne_invalid fs key violation) fun keyPath => ?_
      refine bind_ne_error (keyFile_ne_invalid fs certificate violation) fun certificatePath h => ?_
      cases h
  | addPluginKey cancelled name key makeDefault =>
      refine bind_ne_error ?_ fun changed h => by cases h
      unfold Registry.addPlugin
      split_ifs <;> simp
  | setDefault name =>
      exact bind_ne_error (map_ne_error (get_ne_invalid r name violation))
        fun changed h => by cases h
  | removeKey name =>
      exact bind_ne_error (map_ne_error (get_ne_invalid r name violation))
        fun result h => by cases h
  | listKeys =>
      intro h
      cases h
  | resolveKey name =>
      exact bind_ne_error (resolve_ne_invalid r name violation) fun found h => by cases h

/-! ## §2. Requests on a loaded registry. -/

/-- **Once the document is loaded, no request fails because a rule is broken.** -/
theorem serve_ne_invalid {s : Store} {fs : FileSystem} {r : Registry} (h : s.loaded fs = .ok r)
    (q : Request) (violation : Violation) :
    (runOn (s.serve q) fs).1 ≠ .error (.invalid violation) := by
  rw [serve_of_loaded h]
  cases hanswer : r.respond fs q with
  | error e =>
      intro he
      cases he
      exact respond_ne_invalid r fs q violation hanswer
  | ok result =>
      obtain ⟨answer, changed⟩ := result
      show (if q.isChange = true then s.saving changed answer fs else (.ok answer, fs)).1 ≠ _
      split
      · intro he
        unfold Store.saving at he
        -- what is saved keeps the rules, so the check before saving cannot be what fails
        have hrules := ((sound_of_loaded h).respond hanswer).toKeepsRules
        cases hsave : (runOn (s.save changed) fs).1 with
        | ok _ => simp [hsave] at he; cases he
        | error e =>
            obtain ⟨cause, rfl⟩ := save_error hrules hsave
            simp [hsave] at he
            cases he
      · intro he
        cases he

/-- A document that is not accepted is no name that was not found. -/
theorem loaded_ne_keyNotFound (s : Store) (fs : FileSystem) (name : String) :
    s.loaded fs ≠ .error (.keyNotFound name) := by
  unfold Store.loaded Store.decode
  split
  · simp
  · simp
  · split
    · simp
    · split
      · simp
      · next parsed _ =>
        unfold Registry.validated
        split <;> simp

/-- The default of a stored registry, if it is set, is found. -/
theorem resolveKey_ne_keyNotFound (s : Store) (fs : FileSystem) (name : String) :
    (runOn (s.resolveKey none) fs).1 ≠ .error (.keyNotFound name) := by
  rw [resolveKey_run]
  cases h : s.loaded fs with
  | error e =>
      intro he
      cases he
      exact loaded_ne_keyNotFound s fs name h
  | ok r => exact (sound_of_loaded h).getDefault_ne_keyNotFound name

/-! ## §3. Every registry that can arise. -/

/-- What a run of calls starts from. -/
inductive Registry.Obtained : Registry → Prop where
  | empty : Obtained .empty
  | loaded {s : Store} {fs after : FileSystem} {r : Registry}
      (h : runOn s.load fs = (.ok r, after)) : Obtained r

theorem Registry.Obtained.sound {r : Registry} (h : r.Obtained) : r.Sound := by
  cases h with
  | empty => exact Registry.sound_empty
  | loaded h =>
      rw [load_run] at h
      exact sound_of_loaded (congrArg Prod.fst h)

/-- **Every registry that can arise is sound.**  Whatever is called, in whatever order and with
whatever success, the rules are kept and plugin keys are usable.  So the check before saving
refuses nothing that a request on a stored registry has made, and a default is never one that
is not there. -/
theorem sound_at_all_times {start : Registry} (h : start.Obtained) (calls : List Call) :
    ((start.run calls).validate = .ok ()
      ∧ (∀ name ∈ (start.run calls).names, isBlank name = false)
      ∧ (start.run calls).names.Nodup
      ∧ (∀ name, (start.run calls).defaultName = some name →
          ∃! entry, entry ∈ (start.run calls).entries ∧ entry.name = name)
      ∧ (∀ entry ∈ (start.run calls).entries, ∀ key, entry.material = .pluginKey key →
          isBlank key.id = false ∧ isBlank key.pluginName = false)
      ∧ (∀ name, (start.run calls).resolve none ≠ .error (.keyNotFound name))
      ∧ ∀ (call : Call) (changed : Registry), call.perform (start.run calls) = .ok changed →
          changed.validated = .ok changed)
    ∧ (∀ (s : Store) (fs : FileSystem) (r : Registry), (runOn s.load fs).1 = .ok r →
        ∀ q violation, (runOn (s.serve q) fs).1 ≠ .error (.invalid violation))
    ∧ ∀ (s : Store) (fs : FileSystem) (name : String),
        (runOn (s.resolveKey none) fs).1 ≠ .error (.keyNotFound name) := by
  have hsound : (start.run calls).Sound := h.sound.run calls
  refine ⟨⟨?_, hsound.named, hsound.distinct, ?_, ?_, ?_, ?_⟩, ?_, ?_⟩
  · exact (Registry.validate_eq_ok_iff _).2 hsound.toKeepsRules
  · intro name hname
    exact hsound.existsUnique_default hname
  · intro entry hentry key hkey
    have husable := hsound.usable entry hentry
    rw [hkey] at husable
    exact husable
  · intro name
    exact hsound.getDefault_ne_keyNotFound name
  · intro call changed hcall
    exact (Registry.validated_eq_ok_iff changed changed).2
      ⟨rfl, (hsound.perform hcall).toKeepsRules⟩
  · intro s fs r hload
    rw [load_run] at hload
    exact serve_ne_invalid hload
  · intro s fs name
    exact resolveKey_ne_keyNotFound s fs name

/-- A key pair that is the default, and a plugin key. -/
def twoKeys : Registry where
  defaultName := some "a"
  entries := [⟨"a", .keyPair ⟨"a.key", "a.crt"⟩⟩, ⟨"b", .pluginKey ⟨"1", "p", .empty⟩⟩]

theorem twoKeys_sound : twoKeys.Sound where
  toKeepsRules := (Registry.validate_eq_ok_iff twoKeys).1 (by decide)
  usable := by
    intro entry hentry
    simp only [twoKeys, List.mem_cons, List.not_mem_nil, or_false] at hentry
    rcases hentry with rfl | rfl
    · trivial
    · exact ⟨by decide, by decide⟩

/-- A tree that holds the document of these two keys at its root, as `k`. -/
def storedKeys : FileSystem where
  nodes := [([[0x6B]], .file (Store.encode twoKeys) FileSystem.ownerOnly)]
  workingFolder := []

theorem load_storedKeys : runOn (Store.load ⟨⟨[0x6B]⟩⟩) storedKeys = (.ok twoKeys, storedKeys) := by
  have hread : storedKeys.read ⟨[0x6B]⟩ = .ok (Store.encode twoKeys) := rfl
  rw [load_run, Store.loaded, hread]
  exact congrArg (·, storedKeys) (decode_encode ⟨⟨[0x6B]⟩⟩ twoKeys_sound)

/-- The default is removed, its name is used again, a name that is not there is chosen. -/
theorem twoKeys_at_all_times :
    (runOn (Store.load ⟨⟨[0x6B]⟩⟩) storedKeys).1 = .ok twoKeys
      ∧ (twoKeys.run [.remove "a", .addPlugin false "a" ⟨"2", "p", .empty⟩ false,
          .updateDefault "c"]).validate = .ok () :=
  ⟨congrArg Prod.fst load_storedKeys,
    (sound_at_all_times (.loaded load_storedKeys) [.remove "a",
      .addPlugin false "a" ⟨"2", "p", .empty⟩ false, .updateDefault "c"]).1.1⟩

end Keyring
