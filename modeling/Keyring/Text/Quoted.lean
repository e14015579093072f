/-
  Keyring.Text.Quoted
  ────────────────────────────────
  **A TEXT BETWEEN QUOTATION MARKS, FOR MESSAGES.**

  What a reader of a message could not see, or could take for the end of
  the text, is written as an escape:

      \0 \t \r \n \\ \"   — these six characters
      \u{hex}               — unprintable and joining characters, by code point

  Every other character stands for itself.
-/
import Keyring.Text.Extending
import Keyring.Text.Unprintable

namespace Keyring.Text

/-- The escape of a character by its code point, in lowercase hexadecimal digits. -/
def codePointEscape (c : Char) : List Char :=
  ['\\', 'u', '\x7b'] ++ Nat.toDigits 16 c.toNat ++ ['\x7d']

/-- How a character is written inside a quoted text. -/
def quotedChar (c : Char) : List Char :=
  if c = '\x00' then ['\\', '0']
  else if c = '\t' then ['\\', 't']
  else if c = '\r' then ['\\', 'r']
  else if c = '\n' then ['\\', 'n']
  else if c = '\\' then ['\\', '\\']
  else if c = '"' then ['\\', '"']
  else if isExtending c || isUnprintable c then codePointEscape c
  else [c]

/-- The text between quotation marks. -/
def quoted (s : String) : String :=
  String.ofList ('"' :: s.toList.flatMap quotedChar ++ ['"'])

end Keyring.Text
