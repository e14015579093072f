/-
  Keyring.Text.Blank
  ────────────────────────────────
  **BLANK TEXT AND TRIMMING.**

  A name, an id or a configuration key counts as missing when nothing but
  white space stands in it.  White space is the Unicode property
  White_Space: the ASCII blanks, the line and paragraph separators, and
  the spaces of other widths.

      isBlank s  — every character of `s` is white space (also when empty)
      trim s     — `s` without the white space at its two ends

  The two agree: trimming leaves nothing exactly of a blank text.
-/

namespace Keyring.Text

/-! ## §1. White space. -/

/-- The code points with the Unicode property White_Space, as closed ranges. -/
def whiteSpaceRanges : List (Nat × Nat) :=
  [(0x0009, 0x000D), (0x0020, 0x0020), (0x0085, 0x0085), (0x00A0, 0x00A0),
   (0x1680, 0x1680), (0x2000, 0x200A), (0x2028, 0x2029), (0x202F, 0x202F),
   (0x205F, 0x205F), (0x3000, 0x3000)]

/-- White space in the sense of Unicode. -/
def isWhiteSpace (c : Char) : Bool :=
  whiteSpaceRanges.any fun (first, last) => first ≤ c.toNat && c.toNat ≤ last

/-! ## §2. Blank texts. -/

/-- Nothing but white space. -/
def isBlank (s : String) : Bool :=
  s.toList.all isWhiteSpace

/-! ## §3. Trimming. -/

/-- Drops white space at the front. -/
def trimFront (cs : List Char) : List Char :=
  cs.dropWhile isWhiteSpace

/-- Drops white space at both ends; what stands between is kept as it is. -/
def trimChars (cs : List Char) : List Char :=
  (trimFront (trimFront cs).reverse).reverse

/-- The text without white space at its two ends. -/
def trim (s : String) : String :=
  String.ofList (trimChars s.toList)

end Keyring.Text
