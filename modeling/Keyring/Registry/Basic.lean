/-
  Keyring.Registry.Basic
  ────────────────────────────────
  **THE REGISTRY OF SIGNING KEYS.**

  Entries in the order in which they were added, and the name of the one
  that is used where no name is given.  Every operation takes a registry
  and gives a new one or an error; a failed operation leaves nothing
  behind.

      add, addPlugin  — a new entry at the end; the first entry of all, and
                        one added with the flag, becomes the default
      remove          — takes an entry out; a default that loses its entry
                        is unset, and no other takes its place
      updateDefault   — chooses an entry
      get, getDefault, resolve — look an entry up
-/
import Keyring.Entry
import Keyring.Error
import Keyring.Text.Blank

namespace Keyring

open Text (isBlank)

/-- Named signing keys and the default among them. -/
structure Registry where
  /-- The name used where none is given. -/
  defaultName : Option String
  /-- The entries, oldest first. -/
  entries : List Entry
  deriving DecidableEq

namespace Registry

/-- No entry and no default. -/
def empty : Registry := ⟨none, []⟩

instance : Inhabited Registry := ⟨empty⟩

/-- The names of the entries in order. -/
def names (r : Registry) : List String := r.entries.map Entry.name

/-! ## §1. Looking up. -/

/-- The first entry with this name. -/
def find? (r : Registry) (name : String) : Option Entry :=
  r.entries.find? fun entry => entry.name == name

/-- The first entry with this name, or the error that there is none. -/
def lookUp (r : Registry) (name : String) : Except KeyError Entry :=
  match r.find? name with
  | some entry => .ok entry
  | none => .error (.keyNotFound name)

/-- The entry with exactly this name. -/
def get (r : Registry) (name : String) : Except KeyError Entry :=
  if isBlank name then .error .emptyKeyName else r.lookUp name

/-- The entry that the default names. -/
def getDefault (r : Registry) : Except KeyError Entry :=
  match r.defaultName with
  | none => .error .noDefaultSet
  | some name => r.lookUp name

/-- The entry for a signing operation: the named one, else the default. -/
def resolve (r : Registry) : Option String → Except KeyError Entry
  | some name => r.get name
  | none => r.getDefault

/-- This name is the default. -/
def isDefault (r : Registry) (name : String) : Bool :=
  r.defaultName == some name

/-! ## §2. Adding. -/

/-- A new name must be neither blank nor taken. -/
def checkNewName (r : Registry) (name : String) : Except KeyError Unit :=
  if isBlank name then .error .emptyKeyName
  else if (r.find? name).isSome then .error (.duplicateKeyName name)
  else .ok ()

/-- Puts an entry at the end. -/
def push (r : Registry) (entry : Entry) (makeDefault : Bool) : Registry where
  defaultName := if makeDefault || r.entries.isEmpty then some entry.name else r.defaultName
  entries := r.entries ++ [entry]

/-- Adds a key pair.  `key` and `certificate` check the two files and give the paths to store;
the name is checked before any file is looked at, and the key's file before the certificate's. -/
def add [Monad m] (r : Registry) (name : String) (key certificate : ExceptT KeyError m String)
    (makeDefault : Bool) : ExceptT KeyError m Registry := do
  r.checkNewName name
  let keyPath ← key
  let certificatePath ← certificate
  return r.push ⟨name, .keyPair ⟨keyPath, certificatePath⟩⟩ makeDefault

/-- Adds a key that a plugin holds.  A caller who has given up is noticed before anything else;
then the name, the id and the plugin name must not be blank, and the name not taken. -/
def addPlugin (r : Registry) (cancelled : Bool) (name : String) (key : PluginKey)
    (makeDefault : Bool) : Except KeyError Registry :=
  if cancelled then .error .cancelled
  else if isBlank name then .error .emptyKeyName
  else if isBlank key.id then .error .emptyPluginId
  else if isBlank key.pluginName then .error .emptyPluginName
  else if (r.find? name).isSome then .error (.duplicateKeyName name)
  else .ok (r.push ⟨name, .pluginKey key⟩ makeDefault)

/-! ## §3. Choosing and removing. -/

/-- Makes an entry the default. -/
def updateDefault (r : Registry) (name : String) : Except KeyError Registry :=
  (r.get name).map fun _ => { r with defaultName := some name }

/-- The registry without the first entry of this name. -/
def without (r : Registry) (name : String) : Registry where
  defaultName := if r.isDefault name then none else r.defaultName
  entries := r.entries.eraseP fun entry => entry.name == name

/-- Removes an entry; gives the names removed with the registry that is left. -/
def remove (r : Registry) (name : String) : Except KeyError (List String × Registry) :=
  (r.get name).map fun entry => ([entry.name], r.without name)

end Registry

end Keyring
