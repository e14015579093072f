/-
  Keyring.Command.Run
  ────────────────────────────────
  **THE PROGRAM.**

  Arguments and environment in, an exit code and two texts out: 0 with a
  report, 1 with the error of a failed action, 2 with a word about
  arguments that are not understood.  Only code 0 comes with a report.
-/
import Keyring.Command.Environment
import Keyring.Command.Execute

namespace Keyring.Command

/-- What a run of the program comes to. -/
structure Result where
  exitCode : Nat
  output : String
  errors : String
  deriving DecidableEq, Repr

/-! ## §1. Without an action. -/

/-- The answer to `--version`. -/
def versionText : String := "signkeys 0.1.0\n"

/-- The answer to `--help`. -/
def helpText : String :=
  "Manage named signing keys: local key/certificate pairs and plugin keys.\n\n"
    ++ "Usage: signkeys [OPTIONS] keys <add|list|show|set-default|remove>\n"

/-- The wording of arguments that are not understood. -/
def UsageError.message : UsageError → String
  | .unknownOption argument => "unexpected argument '" ++ Bytes.display argument ++ "' found"
  | .unexpectedValue o => "unexpected value for '--" ++ o.long ++ "' found"
  | .missingValue o => "a value is required for '--" ++ o.long ++ "' but none was supplied"
  | .repeated o => "the argument '--" ++ o.long ++ "' cannot be used multiple times"
  | .emptyPath o => "a value is required for '--" ++ o.long ++ "' but none was supplied"
  | .notText _ => "invalid UTF-8 was detected in one or more arguments"
  | .unexpectedOperand operand => "unexpected argument '" ++ Bytes.display operand ++ "' found"
  | .missingOperand => "the following required arguments were not provided: <NAME>"
  | .missingWord _ => "a subcommand is required but one was not provided"
  | .unknownTopic word => "unrecognized subcommand '" ++ Bytes.display word ++ "'"
  | .missingOption o => "the following required arguments were not provided: --" ++ o.long
  | .missingSource => "the following required arguments were not provided: <--key|--plugin>"
  | .conflicting o other =>
    "the argument '--" ++ o.long ++ "' cannot be used with '--" ++ other.long ++ "'"

/-- What a run comes to that has no action to carry out. -/
def Stop.result : Stop → Result
  | .usage cause => ⟨2, "", "error: " ++ cause.message ++ "\n"⟩
  | .version => ⟨0, versionText, ""⟩
  | .help => ⟨0, helpText, ""⟩

/-! ## §2. With an action. -/

variable {m : Type → Type} [Monad m] [MonadDisk m]

/-- Carries out an action in the configuration folder that was named, or in the user's. -/
def carryOut (e : Environment) (named : Option Path) (action : Action) :
    ExceptT KeyError m (List Terminal.Line) := do
  let folder ← e.configFolder named
  execute (Store.inFolder folder) action

/-- The outcome of an action as a result. -/
def resultOf (e : Environment) : Except KeyError (List Terminal.Line) → Result
  | .ok lines => ⟨0, Terminal.report e.wantsColor lines, ""⟩
  | .error cause => ⟨1, "", Terminal.failure e.wantsColor cause.message⟩

/-- A run from an action on. -/
def runAction (e : Environment) (named : Option Path) (action : Action) : m Result := do
  return resultOf e (← (carryOut e named action).run)

/-- A run of the program. -/
def run (e : Environment) (arguments : List Bytes) : m Result :=
  match interpret arguments e.configDir with
  | .error stop => return stop.result
  | .ok invocation => runAction e invocation.configDir invocation.action

end Keyring.Command
