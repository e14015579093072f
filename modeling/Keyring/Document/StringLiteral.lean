/-
  Keyring.Document.StringLiteral
  ────────────────────────────────
  **STRINGS IN A DOCUMENT.**

  Between its quotation marks a string spells each character in one of
  three ways: as itself (unless it is a quotation mark, a backslash or a
  control character), by a short escape such as `\n`, or by four
  hexadecimal digits, a character above U+FFFF by the two halves of a
  surrogate pair.

      written s      — the one spelling used in writing
      stringBody     — reads any spelling, from behind the first mark
      ignoredString  — passes over a string nobody asked for; there alone
                       a half of a surrogate pair may stand by itself
-/
import Keyring.Document.Reader

namespace Keyring.Document

/-! ## §1. Writing. -/

/-- The digit of a number below sixteen, in lowercase. -/
def hexDigit (n : Nat) : Char :=
  Nat.digitChar n

/-- How a character is written: only the quotation mark, the backslash and the control
characters are escaped, with a short escape where there is one. -/
def writtenChar (c : Char) : List Char :=
  if c = '"' then ['\\', '"']
  else if c = '\\' then ['\\', '\\']
  else if c = '\x08' then ['\\', 'b']
  else if c = '\x0c' then ['\\', 'f']
  else if c = '\n' then ['\\', 'n']
  else if c = '\r' then ['\\', 'r']
  else if c = '\t' then ['\\', 't']
  else if c.toNat < 0x20 then
    ['\\', 'u', '0', '0', hexDigit (c.toNat / 16), hexDigit (c.toNat % 16)]
  else [c]

/-- A text as a string of a document. -/
def written (s : String) : List Char :=
  '"' :: s.toList.flatMap writtenChar ++ ['"']

/-! ## §2. Escapes. -/

/-- The character that a letter stands for after a backslash. -/
def shortEscape? (c : Char) : Option Char :=
  if c = '"' then some '"'
  else if c = '\\' then some '\\'
  else if c = '/' then some '/'
  else if c = 'b' then some '\x08'
  else if c = 'f' then some '\x0c'
  else if c = 'n' then some '\n'
  else if c = 'r' then some '\r'
  else if c = 't' then some '\t'
  else none

/-- The value of a hexadecimal digit in either case. -/
def hexValue? (c : Char) : Option Nat :=
  if '0' ≤ c && c ≤ '9' then some (c.toNat - '0'.toNat)
  else if 'a' ≤ c && c ≤ 'f' then some (c.toNat - 'a'.toNat + 10)
  else if 'A' ≤ c && c ≤ 'F' then some (c.toNat - 'A'.toNat + 10)
  else none

/-- The value of four hexadecimal digits. -/
def hexValue4? (a b c d : Char) : Option Nat := do
  let a ← hexValue? a
  let b ← hexValue? b
  let c ← hexValue? c
  let d ← hexValue? d
  return ((a * 16 + b) * 16 + c) * 16 + d

/-- The first half of a surrogate pair. -/
def isFirstHalf (unit : Nat) : Bool := 0xD800 ≤ unit && unit < 0xDC00

/-- The second half of a surrogate pair. -/
def isSecondHalf (unit : Nat) : Bool := 0xDC00 ≤ unit && unit < 0xE000

/-- The character above U+FFFF that two halves make up. -/
def joinHalves (first second : Nat) : Char :=
  Char.ofNat (0x10000 + (first - 0xD800) * 0x400 + (second - 0xDC00))

namespace Reader

/-- Reads four hexadecimal digits.  Four bytes are taken before they are looked at. -/
def unit : Reader Nat := fun text =>
  match text with
  | a :: b :: c :: d :: rest =>
    match hexValue4? a b c d with
    | some value => .ok value rest
    | none => .fail .invalidEscape (size text - 4)
  | _ => if size text < 4 then .fail .endInString 0 else .fail .invalidEscape (size text - 4)

/-- Reads the second half of a pair. -/
def secondUnit (first : Nat) : Reader Char := do
  let second ← unit
  if isSecondHalf second then return joinHalves first second
  else failHere .loneSurrogate

/-- Reads the second half of a pair with the backslash and the `u` that come before it. -/
def secondHalf (first : Nat) : Reader Char
  | [] => .fail .endInString 0
  | ['\\'] => .fail .endInString 0
  | '\\' :: 'u' :: rest => secondUnit first rest
  | '\\' :: rest => failPast .unfinishedPair rest
  | rest => failPast .unfinishedPair rest

/-- Reads four digits and, after the first half of a pair, the second half. -/
def codePoint : Reader Char := do
  let value ← unit
  if isSecondHalf value then failHere .loneSurrogate
  else if isFirstHalf value then secondHalf value
  else return Char.ofNat value

/-- Reads an escape from behind its backslash. -/
def escape : Reader Char
  | [] => .fail .endInString 0
  | 'u' :: rest => codePoint rest
  | c :: rest =>
    match shortEscape? c with
    | some value => .ok value rest
    | none => failPast .invalidEscape (c :: rest)

/-! ## §3. Whole strings. -/

/-- Reads the character at hand in whatever spelling it has; none at the closing mark, which
is read too.  A control character is refused from behind. -/
def character : Reader (Option Char)
  | [] => .fail .endInString 0
  | '"' :: rest => .ok none rest
  | '\\' :: rest => (do return some (← escape) : Reader (Option Char)) rest
  | c :: rest => if c.toNat < 0x20 then failHere .controlCharacter rest else .ok (some c) rest

/-- Reads characters up to the closing quotation mark, as many as the bound is long.  Each takes
a character of the text at least, so the text itself is a bound. -/
def charactersUpTo : List Char → Reader (List Char)
  | [] => failHere .endInString
  | _ :: bound => do
    match ← character with
    | none => return []
    | some c =>
      let cs ← charactersUpTo bound
      return c :: cs

/-- Reads a string from behind its first quotation mark. -/
def stringBody : Reader String := fun text =>
  (do return String.ofList (← charactersUpTo text) : Reader String) text

/-- Passes over an escape; any four hexadecimal digits will do. -/
def ignoredEscape : Reader Unit
  | [] => .fail .endInString 0
  | 'u' :: rest => (do let _ ← unit : Reader Unit) rest
  | c :: rest =>
    match shortEscape? c with
    | some _ => .ok () rest
    | none => failPast .invalidEscape (c :: rest)

/-- Passes over a character in whatever spelling, and says whether there was one.  A control
character is refused from in front. -/
def ignoredCharacter : Reader Bool
  | [] => .fail .endInString 0
  | '"' :: rest => .ok false rest
  | '\\' :: rest => (do ignoredEscape; return true : Reader Bool) rest
  | c :: rest => if c.toNat < 0x20 then failHere .controlCharacter (c :: rest) else .ok true rest

/-- Passes over characters up to the closing quotation mark, bounded like `charactersUpTo`. -/
def ignoredUpTo : List Char → Reader Unit
  | [] => failHere .endInString
  | _ :: bound => do
    if ← ignoredCharacter then ignoredUpTo bound

/-- Passes over a string from behind its first quotation mark. -/
def ignoredString : Reader Unit := fun text => ignoredUpTo text text

end Reader

end Keyring.Document
