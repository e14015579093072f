/-
  Keyring.Document.Position
  ────────────────────────────────
  **WHERE IN A TEXT.**

  A position says how far a text had been read: the line, counted from
  one, and the number of bytes since that line began.  It is taken after a
  number of bytes of the text's UTF-8 form, which may end inside a
  character.
-/
import Keyring.Text.Bytes

namespace Keyring.Document

/-- A place in a text. -/
structure Position where
  /-- The line, counted from one. -/
  line : Nat
  /-- The bytes of that line before the place. -/
  column : Nat
  deriving DecidableEq, Repr, Inhabited

/-- The byte that ends a line. -/
def lineFeed : UInt8 := 0x0A

/-- The place after these bytes. -/
def Position.after (bytes : Bytes) : Position where
  line := bytes.count lineFeed + 1
  column := (bytes.reverse.takeWhile (· != lineFeed)).length

/-- How many bytes the UTF-8 form of some characters has. -/
def size : List Char → Nat
  | [] => 0
  | c :: cs => c.utf8Size + size cs

/-- The place in a text with `left` bytes still to come. -/
def Position.before (text : String) (left : Nat) : Position :=
  let bytes := Bytes.ofString text
  Position.after (bytes.take (bytes.length - left))

end Keyring.Document
