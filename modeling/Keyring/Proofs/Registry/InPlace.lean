/-
  Keyring.Proofs.Registry.InPlace
  ────────────────────────────────
  **A REGISTRY THAT IS CHANGED IN PLACE.**

  An operation on a registry gives a new one or an error.  Here the same
  operations are written as steps on one registry, in the order in which
  the parts of it are looked at and overwritten.  A step that fails ends
  the operation and takes nothing back:

      x.on r  — what the steps `x` come to on `r`, and the registry that
                they leave, also when one of them fails

  That a failed call leaves the registry as it was is then no matter of
  types: it holds because every check comes before the first change.

  Main results:
    * `Call.inPlace_on` — the steps of a call come to the call;
    * `Call.inPlace_eq_error_iff` — a call that fails has changed nothing.
-/
import Keyring.Proofs.Registry.Calls

namespace Keyring

open Text (isBlank)

/-- Steps on one registry. -/
abbrev InPlace := ExceptT KeyError (StateM Registry)

namespace InPlace

/-! ## §1. Single steps. -/

/-- What the steps come to, and the registry that they leave. -/
def on (steps : InPlace α) (r : Registry) : Except KeyError α × Registry :=
  Id.run (steps.run.run r)

theorem on_bind (first : InPlace α) (next : α → InPlace β) (r : Registry) :
    (first >>= next).on r = match first.on r with
      | (.ok value, r) => (next value).on r
      | (.error e, r) => (.error e, r) := by
  show Id.run ((ExceptT.bindCont next (first.on r).1).run (first.on r).2) = _
  rcases first.on r with ⟨_ | _, after⟩ <;> rfl

theorem on_get (r : Registry) : (get : InPlace Registry).on r = (.ok r, r) := rfl

theorem on_modify (f : Registry → Registry) (r : Registry) :
    (modify f : InPlace Unit).on r = (.ok (), f r) := rfl

theorem on_lift (outcome : Except KeyError α) (r : Registry) :
    (liftM outcome : InPlace α).on r = (outcome, r) := by
  cases outcome <;> rfl

/-! ## §2. Operations in steps. -/

/-- Makes an entry the default, where that is wished or there is no entry yet, and puts it at the
end. -/
def push (entry : Entry) (makeDefault : Bool) : InPlace Unit := do
  if makeDefault || (← get).entries.isEmpty then
    modify fun r => { r with defaultName := some entry.name }
  modify fun r => { r with entries := r.entries ++ [entry] }

/-- Adds a key pair, from what checking its two files comes to. -/
def add (name : String) (key certificate : Except KeyError String) (makeDefault : Bool) :
    InPlace Unit := do
  (← get).checkNewName name
  let keyPath ← key
  let certificatePath ← certificate
  push ⟨name, .keyPair ⟨keyPath, certificatePath⟩⟩ makeDefault

/-- Adds a key that a plugin holds.  Whether the name is blank is asked twice: once before the id
and the plugin name are looked at, and once with the names that are taken. -/
def addPlugin (cancelled : Bool) (name : String) (key : PluginKey) (makeDefault : Bool) :
    InPlace Unit := do
  if cancelled then throw .cancelled
  if isBlank name then throw .emptyKeyName
  if isBlank key.id then throw .emptyPluginId
  if isBlank key.pluginName then throw .emptyPluginName
  (← get).checkNewName name
  push ⟨name, .pluginKey key⟩ makeDefault

/-- Makes an entry the default. -/
def updateDefault (name : String) : InPlace Unit := do
  let _ ← (← get).get name
  modify fun r => { r with defaultName := some name }

/-- Unsets the default if it has this name. -/
def unset (name : String) : InPlace Unit := do
  if (← get).isDefault name then
    modify fun r => { r with defaultName := none }

/-- Takes an entry out, and only then looks whether it was the default. -/
def remove (name : String) : InPlace (List String) := do
  let found ← (← get).get name
  modify fun r => { r with entries := r.entries.eraseP fun entry => entry.name == name }
  unset found.name
  return [found.name]

end InPlace

/-- The steps of a call. -/
def Call.inPlace : Call → InPlace Unit
  | .add name key certificate makeDefault => InPlace.add name key certificate makeDefault
  | .addPlugin cancelled name key makeDefault => InPlace.addPlugin cancelled name key makeDefault
  | .updateDefault name => InPlace.updateDefault name
  | .remove name => do let _ ← InPlace.remove name

/-! ## §3. The steps of an operation come to the operation. -/

namespace InPlace

theorem push_on (entry : Entry) (makeDefault : Bool) (r : Registry) :
    (push entry makeDefault).on r = (.ok (), r.push entry makeDefault) := by
  simp only [push, Registry.push, on_bind, on_get]
  split <;> rfl

theorem unset_on (name : String) (r : Registry) :
    (unset name).on r = (.ok (),
      { r with defaultName := if r.isDefault name then none else r.defaultName }) := by
  simp only [unset, on_bind, on_get]
  split <;> rfl

theorem add_on (name : String) (key certificate : Except KeyError String) (makeDefault : Bool)
    (r : Registry) :
    (add name key certificate makeDefault).on r
      = (((Call.add name key certificate makeDefault).perform r).map fun _ => (),
        r.after (.add name key certificate makeDefault)) := by
  simp only [add, Registry.after, Registry.perform_add, on_bind, on_get, on_lift]
  cases r.checkNewName name with
  | error e => rfl
  | ok _ =>
      cases key with
      | error e => rfl
      | ok keyPath =>
          cases certificate with
          | error e => rfl
          | ok certificatePath => exact push_on _ makeDefault r

theorem addPlugin_on (cancelled : Bool) (name : String) (key : PluginKey) (makeDefault : Bool)
    (r : Registry) :
    (addPlugin cancelled name key makeDefault).on r
      = ((r.addPlugin cancelled name key makeDefault).map fun _ => (),
        r.after (.addPlugin cancelled name key makeDefault)) := by
  simp only [addPlugin, Registry.after, Call.perform, Registry.addPlugin]
  cases cancelled with
  | true => rfl
  | false =>
      cases hname : isBlank name with
      | true => rfl
      | false =>
          cases isBlank key.id with
          | true => rfl
          | false =>
              cases isBlank key.pluginName with
              | true => rfl
              | false =>
                  -- the second look at the name finds nothing new
                  have hcheck : r.checkNewName name = if (r.find? name).isSome then
                      .error (.duplicateKeyName name) else .ok () := by
                    rw [Registry.checkNewName, hname]
                    rfl
                  show ((get : InPlace Registry) >>= fun r => liftM (r.checkNewName name) >>=
                    fun _ => push ⟨name, .pluginKey key⟩ makeDefault).on r = _
                  simp only [on_bind, on_get, on_lift, hcheck]
                  cases (r.find? name).isSome with
                  | true => rfl
                  | false => exact push_on _ makeDefault r

theorem updateDefault_on (name : String) (r : Registry) :
    (updateDefault name).on r
      = ((r.updateDefault name).map fun _ => (), r.after (.updateDefault name)) := by
  simp only [updateDefault, Registry.after, Call.perform, Registry.updateDefault, on_bind, on_get,
    on_lift]
  cases r.get name <;> rfl

theorem remove_on (name : String) (r : Registry) :
    (remove name).on r = ((r.remove name).map (·.1), r.after (.remove name)) := by
  simp only [remove, Registry.after, Call.perform, Registry.remove, on_bind, on_get, on_lift,
    on_modify, unset_on]
  cases hget : r.get name with
  | error e => rfl
  | ok found =>
      obtain ⟨-, -, rfl⟩ := Registry.get_eq_ok hget
      rfl

end InPlace

namespace Call

/-- **The steps of a call come to the call.**  They leave the registry that the call makes, or the
old one if it fails. -/
theorem inPlace_on (call : Call) (r : Registry) :
    call.inPlace.on r = ((call.perform r).map fun _ => (), r.after call) := by
  cases call with
  | add name key certificate makeDefault => exact InPlace.add_on name key certificate makeDefault r
  | addPlugin cancelled name key makeDefault =>
      exact InPlace.addPlugin_on cancelled name key makeDefault r
  | updateDefault name => exact InPlace.updateDefault_on name r
  | remove name =>
      show (InPlace.remove name >>= fun _ => pure ()).on r = _
      simp only [InPlace.on_bind, InPlace.remove_on, perform]
      cases r.remove name <;> rfl

/-- **A call that fails has changed nothing.** -/
theorem inPlace_eq_error_iff (call : Call) (r after : Registry) (e : KeyError) :
    call.inPlace.on r = (.error e, after) ↔ call.perform r = .error e ∧ after = r := by
  rw [inPlace_on, Registry.after]
  cases call.perform r with
  | ok changed => simp [Except.map]
  | error e' => simp [Except.map, eq_comm]

end Call

end Keyring
