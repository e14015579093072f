/-
  Keyring.Text.Bytes
  ────────────────────────────────
  **BYTES FROM THE OPERATING SYSTEM.**

  File contents, file names and arguments arrive as bytes.  Most are UTF-8
  text, none has to be.

      ofString s   — the UTF-8 form of a text
      toString? b  — the text of which `b` is the UTF-8 form, if there is one
      display b    — a text to show: `b` with U+FFFD for each ill-formed piece

  `display` reads one byte at a time.  It remembers what a character that
  has begun still owes; a byte that does not pay ends the piece, and is
  then read afresh.
-/

namespace Keyring

/-- Bytes as they stand in files, file names and arguments. -/
abbrev Bytes := List UInt8

namespace Bytes

/-! ## §1. Bytes and text. -/

/-- The UTF-8 form of a text. -/
def ofString (s : String) : Bytes :=
  s.toUTF8.data.toList

/-- The text that the bytes are the UTF-8 form of. -/
def toString? (bytes : Bytes) : Option String :=
  String.fromUTF8? ⟨bytes.toArray⟩

/-- The UTF-8 form of a text is the form of that text alone. -/
theorem toString?_ofString (s : String) : toString? (ofString s) = some s := by
  show String.fromUTF8? s.toByteArray = some s
  rw [String.fromUTF8?, dif_pos s.isValidUTF8]
  rfl

theorem ofString_append (s t : String) : ofString (s ++ t) = ofString s ++ ofString t := by
  show (s ++ t).toByteArray.data.toList = s.toByteArray.data.toList ++ t.toByteArray.data.toList
  rw [String.toByteArray_append, ByteArray.data_append, Array.toList_append]

theorem ofString_ofList (chars : List Char) :
    ofString (String.ofList chars) = chars.flatMap String.utf8EncodeChar := by
  show (String.ofList chars).toByteArray.data.toList = _
  rw [String.toByteArray_ofList, List.utf8Encode, List.data_toByteArray]

/-! ## §2. Showing bytes that may be ill-formed. -/

/-- What a character that has begun still needs. -/
structure Owed where
  /-- Bytes to come after the next one. -/
  later : Nat
  /-- The least byte that may come next. -/
  least : Nat
  /-- The greatest byte that may come next. -/
  greatest : Nat
  /-- The bits read so far. -/
  bits : Nat
  deriving DecidableEq, Repr

/-- Stands in the shown text for a piece that is not UTF-8. -/
def replacement : Char := Char.ofNat 0xFFFD

/-- Reads a byte between two characters: what it shows, and what is owed after it.  No overlong
form, no surrogate and nothing above U+10FFFF may begin. -/
def readFirst (byte : UInt8) : List Char × Option Owed :=
  let b := byte.toNat
  if b < 0x80 then ([Char.ofNat b], none)
  else if b < 0xC2 then ([replacement], none)
  else if b < 0xE0 then ([], some ⟨0, 0x80, 0xBF, b - 0xC0⟩)
  else if b = 0xE0 then ([], some ⟨1, 0xA0, 0xBF, 0⟩)
  else if b = 0xED then ([], some ⟨1, 0x80, 0x9F, 0xD⟩)
  else if b < 0xF0 then ([], some ⟨1, 0x80, 0xBF, b - 0xE0⟩)
  else if b = 0xF0 then ([], some ⟨2, 0x90, 0xBF, 0⟩)
  else if b < 0xF4 then ([], some ⟨2, 0x80, 0xBF, b - 0xF0⟩)
  else if b = 0xF4 then ([], some ⟨2, 0x80, 0x8F, 4⟩)
  else ([replacement], none)

/-- Reads one byte.  A byte that is not owed ends the piece before it and is read afresh. -/
def readByte : Option Owed → UInt8 → List Char × Option Owed
  | none, byte => readFirst byte
  | some owed, byte =>
    if owed.least ≤ byte.toNat ∧ byte.toNat ≤ owed.greatest then
      let bits := owed.bits * 64 + (byte.toNat - 0x80)
      match owed.later with
      | 0 => ([Char.ofNat bits], none)
      | more + 1 => ([], some ⟨more, 0x80, 0xBF, bits⟩)
    else
      let (shown, next) := readFirst byte
      (replacement :: shown, next)

/-- The characters to show, from a point where `owed` is still to come. -/
def displayFrom : Option Owed → Bytes → List Char
  | none, [] => []
  | some _, [] => [replacement]
  | owed, byte :: rest =>
    let (shown, next) := readByte owed byte
    shown ++ displayFrom next rest

/-- The text to show: U+FFFD stands for each longest piece that begins a character and does
not end it, and for each byte that begins none. -/
def display (bytes : Bytes) : String :=
  String.ofList (displayFrom none bytes)

end Bytes

end Keyring
