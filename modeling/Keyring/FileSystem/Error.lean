/-
  Keyring.FileSystem.Error
  ────────────────────────────────
  **WHY A FILE OPERATION FAILS.**

  Most causes are the operating system's own and carry its number; a few
  are found before or after it is asked.
-/

namespace Keyring

/-- The cause of a failed file operation. -/
inductive FileError where
  /-- A name on the path does not exist. -/
  | notFound
  /-- The thing is in use, such as the root or the working folder itself. -/
  | busy
  /-- The name is taken. -/
  | exists
  /-- Something that is no folder stands on the way, or in the place of one. -/
  | notFolder
  /-- A folder stands in the place of a file. -/
  | isFolder
  /-- A folder to be removed holds something. -/
  | notEmpty
  /-- An argument that the system cannot take. -/
  | invalidArgument
  /-- A name, or the whole path, has too many bytes. -/
  | nameTooLong
  /-- Symbolic links lead on and on. -/
  | tooManyLinks
  /-- A cause without a name here. -/
  | other (text : String) (number : Nat)
  /-- The path holds a byte zero, which no path can. -/
  | zeroByte
  /-- The path leads to something other than a regular file. -/
  | notRegular
  /-- The file does not hold UTF-8 text. -/
  | notText
  deriving DecidableEq, Repr

namespace FileError

/-- The operating system's wording, with its number. -/
def numbered (text : String) (number : Nat) : String :=
  text ++ " (os error " ++ toString number ++ ")"

/-- The wording of a cause. -/
def message : FileError → String
  | .notFound => numbered "No such file or directory" 2
  | .busy => numbered "Device or resource busy" 16
  | .exists => numbered "File exists" 17
  | .notFolder => numbered "Not a directory" 20
  | .isFolder => numbered "Is a directory" 21
  | .invalidArgument => numbered "Invalid argument" 22
  | .nameTooLong => numbered "File name too long" 36
  | .notEmpty => numbered "Directory not empty" 39
  | .tooManyLinks => numbered "Too many levels of symbolic links" 40
  | .other text number => numbered text number
  | .zeroByte => "file name contained an unexpected NUL byte"
  | .notRegular => "not a regular file"
  | .notText => "stream did not contain valid UTF-8"

/-- The cause that the operating system gives this number, with its text for an unknown one. -/
def ofNumber (text : String) : Nat → FileError
  | 2 => .notFound
  | 16 => .busy
  | 17 => .exists
  | 20 => .notFolder
  | 21 => .isFolder
  | 22 => .invalidArgument
  | 36 => .nameTooLong
  | 39 => .notEmpty
  | 40 => .tooManyLinks
  | number => .other text number

end FileError

end Keyring
