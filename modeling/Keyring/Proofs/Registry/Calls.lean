/-
  Keyring.Proofs.Registry.Calls
  ────────────────────────────────
  **A REGISTRY UNDER ANY SEQUENCE OF CALLS.**

  A `Call` is one of the four operations that change a registry, with its
  arguments and with what came of looking at the key files.  A call that
  fails leaves the registry as it was; `Registry.run` makes one call after
  another, whatever comes of each.

  Main results:
    * `perform_cases` — all that a call can do: a new entry at the end,
      another default, or an entry less;
    * `Sound.run` — a sound registry is sound after any sequence of calls.
-/
import Keyring.Proofs.Registry.Rules
import Keyring.Proofs.Steps

namespace Keyring

open Text (isBlank)

/-! ## §1. Calls and runs. -/

/-- An operation that may change a registry. -/
inductive Call where
  /-- Adds a key pair; `key` and `certificate` are what checking the two files came to. -/
  | add (name : String) (key certificate : Except KeyError String) (makeDefault : Bool)
  | addPlugin (cancelled : Bool) (name : String) (key : PluginKey) (makeDefault : Bool)
  | updateDefault (name : String)
  | remove (name : String)

/-- The registry that a call makes of this one, if it succeeds. -/
def Call.perform : Call → Registry → Except KeyError Registry
  | .add name key certificate makeDefault, r =>
    Id.run (r.add name (ExceptT.mk key) (ExceptT.mk certificate) makeDefault).run
  | .addPlugin cancelled name key makeDefault, r => r.addPlugin cancelled name key makeDefault
  | .updateDefault name, r => r.updateDefault name
  | .remove name, r => (r.remove name).map (·.2)

namespace Registry

/-- The registry after a call, which is the old one if the call fails. -/
def after (r : Registry) (call : Call) : Registry :=
  match call.perform r with
  | .ok changed => changed
  | .error _ => r

/-- The registry after one call and another. -/
def run (r : Registry) (calls : List Call) : Registry := calls.foldl after r

/-! ## §2. What a call can do. -/

theorem checkNewName_eq_ok {r : Registry} {name : String} (h : r.checkNewName name = .ok ()) :
    isBlank name = false ∧ name ∉ r.names := by
  unfold checkNewName at h
  split at h
  · cases h
  · next hblank =>
    split at h
    · cases h
    · next hfound =>
      rw [find?_isSome_iff] at hfound
      exact ⟨by simpa using hblank, hfound⟩

/-- What is looked up is an entry of the name. -/
theorem mem_of_lookUp {r : Registry} {name : String} {entry : Entry}
    (h : r.lookUp name = .ok entry) : entry ∈ r.entries ∧ entry.name = name := by
  unfold lookUp at h
  split at h
  · next found hfind =>
    cases h
    exact ⟨List.mem_of_find?_eq_some hfind, by simpa using List.find?_some hfind⟩
  · cases h

/-- Only the name of an entry is found. -/
theorem get_eq_ok {r : Registry} {name : String} {entry : Entry} (h : r.get name = .ok entry) :
    isBlank name = false ∧ entry ∈ r.entries ∧ entry.name = name := by
  unfold get at h
  split at h
  · cases h
  · next hblank => exact ⟨by simpa using hblank, mem_of_lookUp h⟩

/-- What is found, by name or as the default, is an entry. -/
theorem mem_of_resolve {r : Registry} {name : Option String} {entry : Entry}
    (h : r.resolve name = .ok entry) : entry ∈ r.entries := by
  cases name with
  | some name =>
      have hget : r.get name = .ok entry := h
      exact (get_eq_ok hget).2.1
  | none =>
      have hdefault : r.getDefault = .ok entry := h
      unfold getDefault at hdefault
      split at hdefault
      · cases hdefault
      · exact (mem_of_lookUp hdefault).1

/-- The three ways in which a call changes a registry. -/
inductive Change (r : Registry) : Registry → Prop where
  /-- A new entry stands at the end. -/
  | push (entry : Entry) (makeDefault : Bool) (named : isBlank entry.name = false)
      (fresh : entry.name ∉ r.names) (usable : entry.material.IsUsable) :
      Change r (r.push entry makeDefault)
  /-- The default is another entry. -/
  | choose (name : String) (known : name ∈ r.names) : Change r { r with defaultName := some name }
  /-- An entry is gone. -/
  | without (name : String) (known : name ∈ r.names) : Change r (r.without name)

/-- Adding a key pair, step by step. -/
theorem perform_add (r : Registry) (name : String) (key certificate : Except KeyError String)
    (makeDefault : Bool) :
    (Call.add name key certificate makeDefault).perform r = (do
      r.checkNewName name
      let keyPath ← key
      let certificatePath ← certificate
      return r.push ⟨name, .keyPair ⟨keyPath, certificatePath⟩⟩ makeDefault) := by
  show Id.run (r.add (m := Id) name (ExceptT.mk key) (ExceptT.mk certificate) makeDefault).run = _
  unfold add
  cases r.checkNewName name with
  | error e => rfl
  | ok _ =>
      cases key with
      | error e => rfl
      | ok keyPath => cases certificate <;> rfl

theorem add_cases {r r' : Registry} {name : String} {key certificate : Except KeyError String}
    {makeDefault : Bool} (h : (Call.add name key certificate makeDefault).perform r = .ok r') :
    ∃ keyPath certificatePath, key = .ok keyPath ∧ certificate = .ok certificatePath
      ∧ isBlank name = false ∧ name ∉ r.names
      ∧ r' = r.push ⟨name, .keyPair ⟨keyPath, certificatePath⟩⟩ makeDefault := by
  rw [perform_add] at h
  obtain ⟨_, hname, h⟩ := bind_eq_ok h
  obtain ⟨keyPath, hkey, h⟩ := bind_eq_ok h
  obtain ⟨certificatePath, hcertificate, h⟩ := bind_eq_ok h
  obtain ⟨named, fresh⟩ := checkNewName_eq_ok hname
  exact ⟨keyPath, certificatePath, hkey, hcertificate, named, fresh, (Except.ok.inj h).symm⟩

theorem addPlugin_cases {r r' : Registry} {cancelled : Bool} {name : String} {key : PluginKey}
    {makeDefault : Bool} (h : r.addPlugin cancelled name key makeDefault = .ok r') :
    cancelled = false ∧ isBlank name = false ∧ name ∉ r.names
      ∧ (Material.pluginKey key).IsUsable ∧ r' = r.push ⟨name, .pluginKey key⟩ makeDefault := by
  unfold addPlugin at h
  split at h
  · cases h
  split at h
  · cases h
  split at h
  · cases h
  split at h
  · cases h
  split at h
  · cases h
  next hcancelled hname hid hplugin hfound =>
  rw [find?_isSome_iff] at hfound
  exact ⟨by simpa using hcancelled, by simpa using hname, hfound,
    ⟨by simpa using hid, by simpa using hplugin⟩, (Except.ok.inj h).symm⟩

/-- **All that a successful call can do.** -/
theorem perform_cases {call : Call} {r r' : Registry} (h : call.perform r = .ok r') :
    r.Change r' := by
  cases call with
  | add name key certificate makeDefault =>
      obtain ⟨keyPath, certificatePath, -, -, named, fresh, rfl⟩ := add_cases h
      exact .push ⟨name, .keyPair ⟨keyPath, certificatePath⟩⟩ makeDefault named fresh trivial
  | addPlugin cancelled name key makeDefault =>
      obtain ⟨-, named, fresh, usable, rfl⟩ := addPlugin_cases h
      exact .push ⟨name, .pluginKey key⟩ makeDefault named fresh usable
  | updateDefault name =>
      obtain ⟨entry, hget, rfl⟩ := map_eq_ok h
      obtain ⟨-, hmem, rfl⟩ := get_eq_ok hget
      exact .choose entry.name (List.mem_map_of_mem hmem)
  | remove name =>
      obtain ⟨result, hremove, rfl⟩ := map_eq_ok h
      obtain ⟨entry, hget, rfl⟩ := map_eq_ok hremove
      obtain ⟨-, hmem, rfl⟩ := get_eq_ok hget
      exact .without entry.name (List.mem_map_of_mem hmem)

/-! ## §3. Runs keep a registry sound. -/

theorem Sound.change {r r' : Registry} (h : r.Sound) (change : r.Change r') : r'.Sound := by
  cases change with
  | push entry makeDefault named fresh usable => exact h.push named fresh usable makeDefault
  | choose name known => exact h.choose known
  | without name known => exact h.without name

theorem Sound.perform {r r' : Registry} (h : r.Sound) {call : Call}
    (done : call.perform r = .ok r') : r'.Sound :=
  h.change (perform_cases done)

theorem Sound.after {r : Registry} (h : r.Sound) (call : Call) : (r.after call).Sound := by
  unfold Registry.after
  cases hcall : call.perform r with
  | error e => exact h
  | ok changed => exact h.perform hcall

/-- **A sound registry stays sound under any sequence of calls.** -/
theorem Sound.run {r : Registry} (h : r.Sound) (calls : List Call) : (r.run calls).Sound := by
  induction calls generalizing r with
  | nil => exact h
  | cons call calls ih => exact ih (h.after call)

end Registry

end Keyring
