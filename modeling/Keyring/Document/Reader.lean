/-
  Keyring.Document.Reader
  ────────────────────────────────
  **READING A TEXT FROM FRONT TO BACK.**

  A reader takes characters off the front of a text.  It comes to one of
  three outcomes:

      ok value rest        — `value` was read, `rest` is what follows
      fail fault left      — refused, with `left` bytes after the place of
                             the fault
      mismatch cause rest  — the JSON so far is well-formed but does not
                             fit; the place is still to be settled

  A mismatch found in the contents of an object or array is placed only
  after an attempt to close that object or array, and so comes to lie
  behind what the attempt takes: white space, the closing bracket, in an
  array also a comma.

  Places are counted from the end of the text (`left`): what a reader has
  not seen yet fixes them, and no reader needs to know where it began.
-/
import Keyring.Document.Fault

namespace Keyring.Document

/-! ## §1. Outcomes and readers. -/

/-- What reading comes to. -/
inductive Outcome (α : Type) where
  /-- A value, and the text after it. -/
  | ok (value : α) (rest : List Char)
  /-- Refused at the place with `left` bytes after it. -/
  | fail (fault : Fault) (left : Nat)
  /-- Refused at a place still to be settled, with `rest` not yet read. -/
  | mismatch (cause : Mismatch) (rest : List Char)
  deriving DecidableEq, Repr

/-- Reads a value from the front of a text. -/
def Reader (α : Type) : Type := List Char → Outcome α

namespace Reader

/-- Reads nothing. -/
protected def pure (value : α) : Reader α := fun text => .ok value text

/-- Reads one thing after another. -/
protected def bind (first : Reader α) (next : α → Reader β) : Reader β := fun text =>
  match first text with
  | .ok value rest => next value rest
  | .fail fault left => .fail fault left
  | .mismatch cause rest => .mismatch cause rest

instance : Monad Reader where
  pure := Reader.pure
  bind := Reader.bind

/-- Refuses at the point reached. -/
def failHere (fault : Fault) : Reader α := fun text => .fail fault (size text)

/-- Refuses just past the next byte; at the end of the text, there. -/
def failPast (fault : Fault) : Reader α := fun text => .fail fault (size text - 1)

/-- Refuses what has been read so far, at a place to be settled by what encloses it. -/
def reject (cause : Mismatch) : Reader α := fun text => .mismatch cause text

/-! ## §2. White space, words, colons. -/

/-- White space between the parts of a document. -/
def isSpace (c : Char) : Bool :=
  c == ' ' || c == '\n' || c == '\t' || c == '\r'

/-- The text from its first character that is not white space on. -/
def dropSpace (text : List Char) : List Char :=
  text.dropWhile isSpace

/-- Reads white space. -/
def space : Reader Unit := fun text => .ok () (dropSpace text)

/-- Reads the remaining letters of a word; a wrong one is refused past its first byte. -/
def word : List Char → Reader Unit
  | [], text => .ok () text
  | _ :: _, [] => .fail .endInValue 0
  | letter :: letters, c :: rest =>
    if c = letter then word letters rest else failPast .expectedWord (c :: rest)

/-- Reads the colon between a name and a value. -/
def colon : Reader Unit := fun text =>
  match dropSpace text with
  | [] => .fail .endInObject 0
  | ':' :: rest => .ok () rest
  | rest => failPast .expectedColon rest

/-! ## §3. Brackets. -/

/-- The two kinds of brackets. -/
inductive Bracket where
  /-- `[` and `]`, around the elements of an array. -/
  | square
  /-- The braces around the members of an object. -/
  | curly
  deriving DecidableEq, Repr

/-- The character that closes. -/
def Bracket.closer : Bracket → Char
  | .square => ']'
  | .curly => '\x7d'

/-- The fault of a text that ends inside. -/
def Bracket.unfinished : Bracket → Fault
  | .square => .endInList
  | .curly => .endInObject

/-- The fault of anything but a comma or the closer after a part. -/
def Bracket.unseparated : Bracket → Fault
  | .square => .expectedCommaOrBracket
  | .curly => .expectedCommaOrBrace

/-- Says whether another part follows, and goes to its start, past the comma that every part
but the first has before it.  The closer is left standing. -/
def another (bracket : Bracket) (isFirst : Bool) : Reader Bool := fun text =>
  match dropSpace text with
  | [] => .fail bracket.unfinished 0
  | c :: rest =>
    if c = bracket.closer then .ok false (c :: rest)
    else if isFirst then .ok true (c :: rest)
    else if c = ',' then
      match dropSpace rest with
      | [] => .fail .endInValue 0
      | d :: rest =>
        if d = bracket.closer then failPast .trailingComma (d :: rest)
        else .ok true (d :: rest)
    else failPast bracket.unseparated (c :: rest)

/-- Attempts to close: the fault, if it cannot be done, and what is left in either case.  An
array gives up a comma, and the white space after it, before it fails. -/
def attemptClose (bracket : Bracket) (text : List Char) : Option Fault × List Char :=
  match dropSpace text with
  | [] => (some bracket.unfinished, [])
  | c :: rest =>
    if c = bracket.closer then (none, rest)
    else if c = ',' then
      match bracket with
      | .curly => (some .trailingComma, c :: rest)
      -- here the comma is gone whatever comes after it
      | .square =>
        match dropSpace rest with
        | ']' :: rest => (some .trailingComma, ']' :: rest)
        | rest => (some .trailingCharacters, rest)
    else (some .trailingCharacters, c :: rest)

/-- Reads the contents of an object or array and closes it.  A fault of the contents comes
before one of the closing; a mismatch is placed after the attempt. -/
def enclosed (bracket : Bracket) (contents : Reader α) : Reader α := fun text =>
  match contents text with
  | .ok value rest =>
    match attemptClose bracket rest with
    | (none, rest) => .ok value rest
    | (some fault, rest) => failPast fault rest
  | .fail fault left => .fail fault left
  | .mismatch cause rest => failHere (.mismatch cause) (attemptClose bracket rest).2

/-! ## §4. The parts of an array. -/

/-- Reads elements up to the closer, as many as the bound is long.  Each takes a character at
least, so the text itself is a bound, and an empty text ends inside the array. -/
def elementsUpTo (element : Reader α) : List Char → Bool → Reader (List α)
  | [], _ => failPast .endInList
  | _ :: bound, isFirst => do
    if ← another .square isFirst then
      let value ← element
      let values ← elementsUpTo element bound false
      return value :: values
    else
      return []

/-- Reads the elements of an array. -/
def elements (element : Reader α) : Reader (List α) := fun text =>
  elementsUpTo element text true text

end Reader

end Keyring.Document
