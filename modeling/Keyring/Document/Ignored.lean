/-
  Keyring.Document.Ignored
  ────────────────────────────────
  **VALUES THAT NOBODY ASKED FOR.**

  A member whose name is no field of its object may hold any JSON value,
  nested to any depth.  It is passed over: its form is checked and nothing
  is kept.  Where the text ends, or a comma or bracket is out of place,
  the faults differ a little from those of values that are wanted.
-/
import Keyring.Document.Numeral
import Keyring.Document.StringLiteral

namespace Keyring.Document.Reader

/-! ## §1. Between the parts. -/

/-- Passes over the comma or the closer after a part; says whether it was a comma. -/
def ignoredSeparator (bracket : Bracket) : Reader Bool := fun text =>
  match dropSpace text with
  | [] => .fail bracket.unfinished 0
  | c :: rest =>
    if c = bracket.closer then .ok false rest
    else if c = ',' then .ok true rest
    else failPast bracket.unseparated (c :: rest)

/-- Passes over an opening bracket's closer, if it follows at once; says whether parts come. -/
def ignoredOpening (bracket : Bracket) : Reader Bool := fun text =>
  match dropSpace text with
  | [] => .fail bracket.unfinished 0
  | c :: rest => if c = bracket.closer then .ok false rest else .ok true (c :: rest)

/-- Passes over the name of a member. -/
def ignoredName : Reader Unit := fun text =>
  match dropSpace text with
  | [] => .fail .endInObject 0
  | '"' :: rest => ignoredString rest
  | rest => failPast .nameNotString rest

/-! ## §2. Values. -/

/-- Passes over a value that is neither array nor object. -/
def ignoredScalar : Reader Unit
  | [] => .fail .endInValue 0
  | 'n' :: rest => word ['u', 'l', 'l'] rest
  | 't' :: rest => word ['r', 'u', 'e'] rest
  | 'f' :: rest => word ['a', 'l', 's', 'e'] rest
  | '"' :: rest => ignoredString rest
  | c :: rest =>
    if c = '-' || c.isDigit then (do let _ ← numeral .invalidNumber : Reader Unit) (c :: rest)
    else failPast .expectedValue (c :: rest)

mutual

/-- Passes over a value.  A bracket and a part of its contents use up two steps of the bound
and at least one character. -/
def ignoredUpToDepth : Nat → Reader Unit
  | 0 => failHere .endInValue
  | bound + 1 => fun text =>
    match dropSpace text with
    | '[' :: rest =>
      (do if ← ignoredOpening .square then ignoredElements bound : Reader Unit) rest
    | '\x7b' :: rest =>
      (do if ← ignoredOpening .curly then ignoredMembers bound : Reader Unit) rest
    | rest => ignoredScalar rest

/-- Passes over the elements of an array and its closer. -/
def ignoredElements : Nat → Reader Unit
  | 0 => failHere .endInValue
  | bound + 1 => do
    ignoredUpToDepth bound
    if ← ignoredSeparator .square then ignoredElements bound

/-- Passes over the members of an object and its closer. -/
def ignoredMembers : Nat → Reader Unit
  | 0 => failHere .endInValue
  | bound + 1 => do
    ignoredName
    colon
    ignoredUpToDepth bound
    if ← ignoredSeparator .curly then ignoredMembers bound

end

/-- Passes over a value. -/
def ignored : Reader Unit := fun text => ignoredUpToDepth (2 * text.length + 1) text

end Keyring.Document.Reader
