/-
  Keyring.Store.Operations
  ────────────────────────────────
  **WORKING ON THE STORED REGISTRY.**

  Each operation loads the registry, works on that copy and, if it changes
  it, saves the result.  An operation that fails saves nothing.

      addKey, addPluginKey, setDefault, removeKey — load, change, save
      listKeys, resolveKey                        — load alone
-/
import Keyring.Store.Basic

namespace Keyring

variable {m : Type → Type} [Monad m] [MonadDisk m]

/-! ## §1. Key files. -/

/-- Checks that a key file can be opened and is a regular file, and gives its path as it is
stored.  Nothing is asked of what it holds. -/
def checkKeyFile (p : Path) : ExceptT KeyError m String :=
  ExceptT.mk do
    match p.toString? with
    | none => return .error (.invalidConfig (.pathNotText p))
    | some text =>
      match ← MonadDisk.inspect p with
      | .error cause => return .error (.keyFileNotFound p cause)
      | .ok .file => return .ok text
      | .ok _ => return .error (.keyFileNotFound p .notRegular)

namespace Store

/-! ## §2. Operations that look. -/

/-- The stored registry. -/
def listKeys (s : Store) : ExceptT KeyError m Registry := s.load

/-- The stored entry with this name, or the default one where no name is given. -/
def resolveKey (s : Store) (name : Option String) : ExceptT KeyError m Entry := do
  let r ← s.load
  r.resolve name

/-! ## §3. Operations that change. -/

/-- Loads the registry, changes it and saves it. -/
def mutate (s : Store) (operation : Registry → ExceptT KeyError m Registry) :
    ExceptT KeyError m Registry := do
  let r ← s.load
  let changed ← operation r
  s.save changed
  return changed

/-- Adds a key pair, given by the paths of its two files. -/
def addKey (s : Store) (name : String) (key certificate : Path) (makeDefault : Bool) :
    ExceptT KeyError m Registry :=
  s.mutate fun r => r.add name (checkKeyFile key) (checkKeyFile certificate) makeDefault

/-- Adds a key that a plugin holds. -/
def addPluginKey (s : Store) (cancelled : Bool) (name : String) (key : PluginKey)
    (makeDefault : Bool) : ExceptT KeyError m Registry :=
  s.mutate fun r => r.addPlugin cancelled name key makeDefault

/-- Makes an entry the default. -/
def setDefault (s : Store) (name : String) : ExceptT KeyError m Unit := do
  let _ ← s.mutate fun r => r.updateDefault name

/-- Removes an entry; gives the names removed. -/
def removeKey (s : Store) (name : String) : ExceptT KeyError m (List String) := do
  let r ← s.load
  let (removed, left) ← r.remove name
  s.save left
  return removed

end Store

end Keyring
