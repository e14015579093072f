/-
  Keyring.Command.Settings
  ────────────────────────────────
  **PLUGIN SETTINGS GIVEN AS ARGUMENTS.**

  A setting is `KEY=VALUE`, split at its first equals sign.  White space
  around the key is dropped, and something must be left; the value stays
  as it is, and may hold anything.  Of two settings with one key the later
  counts.
-/
import Keyring.Config
import Keyring.Error
import Keyring.Text.Blank

namespace Keyring.Command

/-- The key and the value of a setting. -/
def splitSetting? (argument : String) : Option Setting :=
  let cs := argument.toList
  match cs.dropWhile (· != '=') with
  | [] => none
  | _ :: value =>
    let key := Text.trimChars (cs.takeWhile (· != '='))
    if key.isEmpty then none else some (String.ofList key, String.ofList value)

/-- The setting of an argument, or the error that quotes it. -/
def readSetting (argument : String) : Except KeyError Setting :=
  match splitSetting? argument with
  | some setting => .ok setting
  | none => .error (.invalidConfig (.notSetting argument))

/-- The configuration that arguments give; the first that is no setting is reported. -/
def readSettings (arguments : List String) : Except KeyError Config :=
  (arguments.mapM readSetting).map Config.ofList

/-- A setting as it is shown, which is also how it can be given. -/
def writeSetting (setting : Setting) : String :=
  setting.1 ++ "=" ++ setting.2

end Keyring.Command
