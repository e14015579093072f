/-
  Keyring.Main
  ────────────────────────────────
  **THE PROGRAM ON A REAL DISK.**

  The file operations by the operating system, the environment by its
  variables, and the result of a run on the two streams.  Nothing is
  decided here.
-/
import Keyring.Command.Run

namespace Keyring

open FileSystem (Kind)

/-! ## §1. Failures of the operating system. -/

/-- The number of a failure; some operations give it with a minus, as 32 bits. -/
def errorNumber (code : UInt32) : Nat :=
  if UInt32.size / 2 ≤ code.toNat then UInt32.size - code.toNat else code.toNat

/-- The cause of a failure. -/
def causeOf : IO.Error → FileError
  | .alreadyExists _ number text
  | .interrupted _ number text
  | .noFileOrDirectory _ number text
  | .invalidArgument _ number text
  | .permissionDenied _ number text
  | .resourceExhausted _ number text
  | .inappropriateType _ number text
  | .noSuchThing _ number text
  | .otherError number text
  | .resourceBusy number text
  | .resourceVanished number text
  | .unsupportedOperation number text
  | .hardwareFault number text
  | .unsatisfiedConstraints number text
  | .illegalOperation number text
  | .protocolError number text
  | .timeExpired number text => FileError.ofNumber text (errorNumber number)
  | .unexpectedEof => .other "unexpected end of file" 0
  | .userError text => .other text 0

/-- Runs an operation on a path; only paths that are text can be handed on. -/
def onPath (p : Path) (operation : String → IO α) : IO (Except FileError α) := do
  if p.bytes.contains 0 then return .error .zeroByte
  match p.toString? with
  | none => return .error .invalidArgument
  | some text =>
    try return .ok (← operation text)
    catch e => return .error (causeOf e)

/-! ## §2. File operations. -/

/-- What a path leads to. -/
def kindOf (text : String) : IO Kind := do
  let metadata ← ((← IO.currentDir) / text).metadata
  return match metadata.type with
    | .file => .file
    | .dir => .folder
    | _ => .other

/-- Creates an empty file that was not there, for its owner alone.  If its permissions cannot be
set it does not stay. -/
def createOwn (text : String) : IO Unit := do
  let _ ← IO.FS.Handle.mk text .writeNew
  try IO.setAccessRights text { user := { read := true, write := true } }
  catch e =>
    try IO.FS.removeFile text catch _ => pure ()
    throw e

/-- Tries names until one is free. -/
def createUnderFreeName (folder : Path) : Nat → IO (Except FileError Path)
  | 0 => return .error .exists
  | tries + 1 => do
    let path := folder.push (FileSystem.temporaryName (← IO.rand 0 999999))
    match ← onPath path createOwn with
    | .ok () => return .ok path
    | .error .exists => createUnderFreeName folder tries
    | .error cause => return .error cause

/-- Writes at the end of a file and hands what was written to the system. -/
def writeAtEnd (content : Bytes) (text : String) : IO Unit := do
  let handle ← IO.FS.Handle.mk text .append
  handle.write ⟨content.toArray⟩
  handle.flush

instance : MonadDisk IO where
  read p := onPath p fun text => return (← IO.FS.readBinFile text).data.toList
  inspect p := onPath p fun text => do
    let _ ← IO.FS.Handle.mk text .read
    kindOf text
  isFolder p := do
    match ← onPath p kindOf with
    | .ok .folder => return true
    | _ => return false
  makeFolder p := onPath p fun text => IO.FS.createDir text
  createTemporary folder := createUnderFreeName folder 1000
  append p content := onPath p (writeAtEnd content)
  -- a handle can be flushed to the system, but there is no call that waits for the disk itself
  sync p := onPath p (writeAtEnd [])
  rename source target := do
    match target.toString? with
    | none => return .error .invalidArgument
    | some text => onPath source fun source => IO.FS.rename source text
  remove p := onPath p fun text => IO.FS.removeFile text
  workingFolder := do
    try return .ok (Path.ofString (← IO.currentDir).toString)
    catch e => return .error (causeOf e)

/-! ## §3. The run. -/

/-- A variable of the environment. -/
def environmentVariable (name : String) : IO (Option Bytes) :=
  return (← IO.getEnv name).map Bytes.ofString

/-- The lines of a file of the system, none if it cannot be read. -/
def systemLines (file : String) : IO (List String) := do
  try return (← IO.FS.lines file).toList
  catch _ => return []

/-- The number of the user, by the status of the process: the first of four on the line `Uid:`. -/
def userNumber? (status : List String) : Option String :=
  status.findSome? fun line =>
    match (line.replace "\t" " ").splitOn " " |>.filter (· ≠ "") with
    | "Uid:" :: number :: _ => some number
    | _ => none

/-- The folder of a user, by the table of accounts: the sixth field where the third is the number.
A folder without a name is none. -/
def accountFolder? (accounts : List String) (number : String) : Option String :=
  (accounts.findSome? fun line =>
    match line.splitOn ":" with
    | _ :: _ :: user :: _ :: _ :: folder :: _ => if user = number then some folder else none
    | _ => none).filter (· ≠ "")

/-- The folder of the user of this process, as far as the table of accounts on this machine
knows it. -/
def accountHome : IO (Option Bytes) := do
  match userNumber? (← systemLines "/proc/self/status") with
  | none => return none
  | some number =>
    return (accountFolder? (← systemLines "/etc/passwd") number).map Bytes.ofString

/-- The environment of the process. -/
def processEnvironment : IO Command.Environment := do
  return {
    configDir := ← environmentVariable "SIGNKEYS_CONFIG_DIR"
    xdgConfigHome := ← environmentVariable "XDG_CONFIG_HOME"
    home := ← environmentVariable "HOME"
    accountHome := ← accountHome
    forceColor := ← environmentVariable "CLICOLOR_FORCE"
    noColor := ← environmentVariable "NO_COLOR"
    color := ← environmentVariable "CLICOLOR"
    onTerminal := ← (← IO.getStdout).isTty }

end Keyring

/-- Runs the program on its arguments. -/
def main (arguments : List String) : IO UInt32 := do
  let environment ← Keyring.processEnvironment
  let result ← Keyring.Command.run environment (arguments.map Keyring.Bytes.ofString)
  (← IO.getStdout).putStr result.output
  (← IO.getStderr).putStr result.errors
  return result.exitCode.toUInt32
