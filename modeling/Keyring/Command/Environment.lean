/-
  Keyring.Command.Environment
  ────────────────────────────────
  **WHAT THE SURROUNDINGS DECIDE.**

  The environment names the configuration folder where the arguments do
  not, and says whether colours are wanted.
-/
import Keyring.Error

namespace Keyring.Command

/-- The part of the environment that matters. -/
structure Environment where
  /-- `SIGNKEYS_CONFIG_DIR`: the configuration folder. -/
  configDir : Option Bytes
  /-- `XDG_CONFIG_HOME`: the folder of the user's configuration. -/
  xdgConfigHome : Option Bytes
  /-- `HOME`: the user's own folder. -/
  home : Option Bytes
  /-- The user's own folder by the account. -/
  accountHome : Option Bytes
  /-- `CLICOLOR_FORCE`: colours are wanted in any case. -/
  forceColor : Option Bytes
  /-- `NO_COLOR`: colours are not wanted. -/
  noColor : Option Bytes
  /-- `CLICOLOR`: colours are wanted on a terminal. -/
  color : Option Bytes
  /-- The output goes to a terminal. -/
  onTerminal : Bool

namespace Environment

/-! ## §1. The configuration folder. -/

/-- The user's own folder. -/
def homeFolder? (e : Environment) : Option Path :=
  match e.home with
  | some home@(_ :: _) => some ⟨home⟩
  | _ => e.accountHome.map Path.mk

/-- The folder of the user's configuration. -/
def userConfig? (e : Environment) : Option Path :=
  match e.xdgConfigHome with
  | some folder =>
    if (Path.mk folder).isAbsolute then some ⟨folder⟩
    else e.homeFolder?.map fun home => home.join ".config"
  | none => e.homeFolder?.map fun home => home.join ".config"

/-- The configuration folder: the one that was named, else one of the user's. -/
def configFolder (e : Environment) (named : Option Path) : Except KeyError Path :=
  match named with
  | some folder => .ok folder
  | none =>
    match e.userConfig? with
    | some folder => .ok (folder.join "signkeys")
    | none => .error (.invalidConfig .noConfigFolder)

/-! ## §2. Colours. -/

/-- A switch that is on unless it is 0; without text it is not set. -/
def switch? (setting : Option Bytes) : Option Bool :=
  (setting.bind Bytes.toString?).map (· != "0")

/-- Whether to write in colour.  A force that is on comes first, then a refusal; otherwise a
terminal gets colours unless they are switched off. -/
def wantsColor (e : Environment) : Bool :=
  if switch? e.forceColor = some true then true
  else if (switch? e.noColor).isSome then false
  else (switch? e.color).getD true && e.onTerminal

end Environment

end Keyring.Command
