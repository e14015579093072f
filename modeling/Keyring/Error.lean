/-
  Keyring.Error
  ────────────────────────────────
  **WHAT CAN GO WRONG, AND HOW IT IS REPORTED.**

      Violation — a registry breaks one of its rules
      KeyError  — any failed operation; a document that cannot be read and
                  a file operation that fails keep their own cause
-/
import Keyring.Document.Fault
import Keyring.FileSystem.Error
import Keyring.Path

namespace Keyring

/-! ## §1. Broken rules. -/

/-- The rules of a registry, as they are broken. -/
inductive Violation where
  /-- Some entry has a blank name. -/
  | emptyKeyName
  /-- Two entries have this name. -/
  | duplicateName (name : String)
  /-- The default is blank. -/
  | emptyDefault
  /-- The default is the name of no entry. -/
  | invalidDefault (name : String)
  deriving DecidableEq, Repr

/-- The wording of a broken rule. -/
def Violation.message : Violation → String
  | .emptyKeyName => "key name cannot be empty"
  | .duplicateName name => "multiple keys with name '" ++ name ++ "' found"
  | .emptyDefault => "default key name cannot be empty"
  | .invalidDefault name => "default key '" ++ name ++ "' not found"

/-! ## §2. Failed operations. -/

/-- What is wrong with a setting or an argument. -/
inductive Misconfiguration where
  /-- The path of a key file is not text and so cannot be stored. -/
  | pathNotText (path : Path)
  /-- A plugin setting is not of the form `KEY=VALUE`. -/
  | notSetting (argument : String)
  /-- Neither a complete key pair nor a complete plugin key was given. -/
  | noSource
  /-- No folder is named for the configuration, and the user has none. -/
  | noConfigFolder
  deriving DecidableEq, Repr

/-- The wording of a misconfiguration. -/
def Misconfiguration.message : Misconfiguration → String
  | .pathNotText path => "key file path is not valid UTF-8: " ++ path.display
  | .notSetting argument =>
    "invalid --plugin-config '" ++ argument ++ "', expected KEY=VALUE"
  | .noSource => "either --key and --cert, or --plugin and --id, are required"
  | .noConfigFolder =>
    "Could not determine config directory. Set SIGNKEYS_CONFIG_DIR or pass --config-dir."

/-- Why an operation on keys fails. -/
inductive KeyError where
  | emptyKeyName
  | duplicateKeyName (name : String)
  | keyNotFound (name : String)
  | noDefaultSet
  | emptyPluginId
  | emptyPluginName
  /-- The file of a key or certificate cannot be opened, or is no regular file. -/
  | keyFileNotFound (path : Path) (cause : FileError)
  /-- The document at this path cannot be read as a registry. -/
  | malformedDocument (path : Path) (cause : Document.DocumentError)
  /-- The registry breaks a rule. -/
  | invalid (cause : Violation)
  /-- The caller has given up. -/
  | cancelled
  | invalidConfig (cause : Misconfiguration)
  /-- Reading or writing the document fails. -/
  | io (cause : FileError)
  deriving DecidableEq, Repr

/-- The wording of a failed operation. -/
def KeyError.message : KeyError → String
  | .emptyKeyName => "key name cannot be empty"
  | .duplicateKeyName name =>
    "signing key with name '" ++ name ++ "' already exists\n\n"
      ++ "  Pick another name, or remove the existing key first:\n"
      ++ "    → signkeys keys remove " ++ name
  | .keyNotFound name => "signing key '" ++ name ++ "' not found"
  | .noDefaultSet =>
    "default signing key not set\n\n"
      ++ "  Solutions:\n"
      ++ "    → Mark a key as default: signkeys keys set-default <name>\n"
      ++ "    → Or name the key explicitly: signkeys keys show <name>"
  | .emptyPluginId => "plugin key id cannot be empty"
  | .emptyPluginName => "plugin name cannot be empty"
  | .keyFileNotFound path cause =>
    "key file not found: " ++ path.display ++ ": " ++ cause.message
  | .malformedDocument path cause =>
    "failed to parse " ++ path.display ++ ": " ++ cause.message
  | .invalid cause => "malformed signingkeys.json: " ++ cause.message
  | .cancelled => "operation cancelled"
  | .invalidConfig cause => "Invalid configuration: " ++ cause.message
  | .io cause => cause.message

end Keyring
