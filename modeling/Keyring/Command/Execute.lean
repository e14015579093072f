/-
  Keyring.Command.Execute
  ────────────────────────────────
  **CARRYING OUT AN ACTION.**

  An action on a store comes to the lines of a report or to an error.  A
  report is made only of what has been done: nothing is said before the
  store has been written.
-/
import Keyring.Command.Invocation
import Keyring.Command.Settings
import Keyring.Store.Operations
import Keyring.Terminal.Line

namespace Keyring.Command

open Terminal (Line)

variable {m : Type → Type} [Monad m] [MonadDisk m]

/-! ## §1. Adding. -/

/-- A path from the root, so that it means the same from any working folder.  No file is looked
at; a path that has no such form stays as it is. -/
def absolute (p : Path) : m Path := do
  match ← MonadDisk.workingFolder with
  | .ok folder => return (p.absolute? folder).getD p
  | .error _ => return if p.isAbsolute then (p.absolute? p).getD p else p

/-- The line about a new default, if the key has become it. -/
def defaultLine (r : Registry) (name : String) : List Line :=
  if r.isDefault name then [.success ("'" ++ name ++ "' is now the default signing key")] else []

/-- Adds a key pair. -/
def addKeyPair (s : Store) (name : String) (key cert : Path) (makeDefault : Bool) :
    ExceptT KeyError m (List Line) := do
  let key ← (absolute key : m Path)
  let cert ← (absolute cert : m Path)
  let r ← s.addKey name key cert makeDefault
  return .success ("Added signing key: " ++ name) :: defaultLine r name

/-- Adds a key that a plugin holds.  Its settings are read before the store is. -/
def addPluginKey (s : Store) (name plugin id : String) (settings : List String)
    (makeDefault : Bool) : ExceptT KeyError m (List Line) := do
  let config ← readSettings settings
  -- on the command line nobody gives up halfway
  let r ← s.addPluginKey false name ⟨id, plugin, config⟩ makeDefault
  return .success ("Added plugin signing key: " ++ name ++ " (" ++ plugin ++ ")")
    :: defaultLine r name

/-- Adds a key: a pair where both of its files are given, else a plugin key. -/
def add (s : Store) (request : AddRequest) : ExceptT KeyError m (List Line) :=
  match request.key, request.cert, request.plugin, request.id with
  | some key, some cert, _, _ => addKeyPair s request.name key cert request.makeDefault
  | _, _, some plugin, some id =>
    addPluginKey s request.name plugin id request.pluginConfig request.makeDefault
  | _, _, _, _ => throw (.invalidConfig .noSource)

/-! ## §2. Listing and presenting. -/

/-- What a list says of the material of an entry. -/
def detail : Material → String
  | .keyPair pair => pair.certificatePath
  | .pluginKey key => key.pluginName ++ " / " ++ key.id

/-- The row of an entry in a list. -/
def row (r : Registry) (entry : Entry) : Line :=
  .key (r.isDefault entry.name) entry.name entry.material.kind (detail entry.material)

/-- The report on all keys. -/
def listing (s : Store) (r : Registry) : List Line :=
  if r.entries.isEmpty then
    [.warning "No signing keys configured.",
      .plain "  Run 'signkeys keys add <name> --key <path> --cert <path>' to add one."]
  else
    .heading ("Signing keys (" ++ toString r.entries.length ++ ") in " ++ s.path.display)
      :: r.entries.map (row r)
      ++ (if r.defaultName.isNone then [.plain "", .warning "No default signing key set."]
          else [])

/-- The report on one key. -/
def presentation (entry : Entry) : List Line :=
  .heading entry.name ::
    match entry.material with
    | .keyPair pair => [
        .field "Type" "local key pair",
        .field "Key" pair.keyPath,
        .field "Certificate" pair.certificatePath]
    | .pluginKey key =>
      [ .field "Type" "plugin",
        .field "Plugin" key.pluginName,
        .field "Key id" key.id]
        ++ key.config.toList.map fun setting => .field "Config" (writeSetting setting)

/-! ## §3. All actions. -/

/-- Carries out an action and reports on it. -/
def execute (s : Store) : Action → ExceptT KeyError m (List Line)
  | .add request => add s request
  | .list => do
    let r ← s.listKeys
    return listing s r
  | .present name => do
    let entry ← s.resolveKey name
    return presentation entry
  | .choose name => do
    s.setDefault name
    return [.success ("Default signing key set to: " ++ name)]
  | .remove name => do
    let removed ← s.removeKey name
    return removed.map fun name => .success ("Removed signing key: " ++ name)

end Keyring.Command
