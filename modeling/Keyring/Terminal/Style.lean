/-
  Keyring.Terminal.Style
  ────────────────────────────────
  **COLOURED TEXT.**

  A style is switched on by an escape sequence before the text and off by
  another after it.  Text that itself holds the second sequence would
  switch the style off too soon, so the style is switched on again after
  each.
-/

namespace Keyring.Terminal

/-- How text may look. -/
inductive Style where
  | green
  | yellow
  | red
  | bold
  | dimmed
  deriving DecidableEq, Repr

/-- The character that begins an escape sequence. -/
def escapeChar : Char := '\x1b'

/-- The sequence that sets a number. -/
def sequence (number : List Char) : List Char :=
  escapeChar :: '[' :: number ++ ['m']

/-- The sequence that switches a style on. -/
def Style.on : Style → List Char
  | .green => sequence ['3', '2']
  | .yellow => sequence ['3', '3']
  | .red => sequence ['3', '1']
  | .bold => sequence ['1']
  | .dimmed => sequence ['2']

/-- The sequence that switches every style off. -/
def off : List Char := sequence ['0']

/-- Puts characters after each `off` in a text. -/
def resume (on : List Char) : List Char → List Char
  | '\x1b' :: '[' :: '0' :: 'm' :: rest => off ++ on ++ resume on rest
  | c :: rest => c :: resume on rest
  | [] => []

/-- The text in a style, where colours are wanted. -/
def paint (inColor : Bool) (style : Style) (text : String) : String :=
  if inColor then String.ofList (style.on ++ resume style.on text.toList ++ off) else text

end Keyring.Terminal
