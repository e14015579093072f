/-
  Keyring.Document.Numeral
  ────────────────────────────────
  **NUMBERS IN A DOCUMENT.**

  No field of a registry is a number.  One may stand where a member is
  ignored, and then only its form counts; where it stands in the place of
  something else, the message names its value.

      numeral atEnd    — reads the form; `atEnd` is the fault where the
                         text ends before a digit that must come
      Numeral.value    — what the form denotes: an integer of 64 bits, else
                         the nearest floating-point number by the rule of
                         `scaled`, unless that is infinite
-/
import Keyring.Document.Reader

namespace Keyring.Document

/-! ## §1. The form. -/

/-- An exponent as written. -/
structure Exponent where
  isNegative : Bool
  digits : List Char
  deriving DecidableEq, Repr

/-- A number as written. -/
structure Numeral where
  isNegative : Bool
  /-- The digits before the point. -/
  whole : List Char
  /-- The digits after the point. -/
  fraction : Option (List Char)
  exponent : Option Exponent
  deriving DecidableEq, Repr

namespace Reader

/-- Reads digits, at least one. -/
def digits (atEnd : Fault) : Reader (List Char)
  | [] => .fail atEnd 0
  | c :: rest =>
    if c.isDigit then
      .ok ((c :: rest).takeWhile Char.isDigit) ((c :: rest).dropWhile Char.isDigit)
    else failPast .invalidNumber (c :: rest)

/-- Reads the digits before the point; a zero in front stands alone. -/
def wholePart (atEnd : Fault) : Reader (List Char)
  | '0' :: rest =>
    match rest with
    | [] => .ok ['0'] []
    | c :: more => if c.isDigit then failPast .invalidNumber (c :: more) else .ok ['0'] rest
  | text => digits atEnd text

/-- Reads a point and the digits after it, if there is a point. -/
def fractionPart (atEnd : Fault) : Reader (Option (List Char))
  | '.' :: rest => (do return some (← digits atEnd) : Reader (Option (List Char))) rest
  | text => .ok none text

/-- Reads the sign of an exponent; says whether it is a minus. -/
def exponentSign : Reader Bool
  | '+' :: rest => .ok false rest
  | '-' :: rest => .ok true rest
  | text => .ok false text

/-- Reads an exponent from behind its letter. -/
def exponentBody (atEnd : Fault) : Reader (Option Exponent) := do
  let isNegative ← exponentSign
  let digits ← digits atEnd
  return some ⟨isNegative, digits⟩

/-- Reads an exponent, if there is one. -/
def exponentPart (atEnd : Fault) : Reader (Option Exponent)
  | 'e' :: rest => exponentBody atEnd rest
  | 'E' :: rest => exponentBody atEnd rest
  | text => .ok none text

/-- Reads the minus of a number, if there is one. -/
def minus : Reader Bool
  | '-' :: rest => .ok true rest
  | text => .ok false text

/-- Reads a number. -/
def numeral (atEnd : Fault) : Reader Numeral := do
  let isNegative ← minus
  let whole ← wholePart atEnd
  let fraction ← fractionPart atEnd
  let exponent ← exponentPart atEnd
  return ⟨isNegative, whole, fraction, exponent⟩

end Reader

/-! ## §2. The value. -/

/-- What a number denotes. -/
inductive Denoted where
  | integer (value : Int)
  | floating (value : Float)
  /-- Too large; `unread` digits of the exponent were not needed to see it. -/
  | tooLarge (unread : Nat)

/-- The value of a decimal digit. -/
def digitValue (c : Char) : Nat := c.toNat - '0'.toNat

/-- Continues a number below 2^64 by digits as long as it stays below; the digits left over. -/
def absorb : Nat → List Char → Nat × List Char
  | value, [] => (value, [])
  | value, c :: cs =>
    let next := value * 10 + digitValue c
    if next < UInt64.size then absorb next cs else (value, c :: cs)

/-- The power of ten, correctly rounded. -/
def tenTo (n : Nat) : Float := Float.ofScientific 1 false n

/-- The number `x * 10^exponent`, by one multiplication or division where the power is a
floating-point number; a smaller number is first divided by 10^308 while it is not zero, which
happens twice at most.  Nothing if the result is infinite. -/
def scaled (x : Float) (exponent : Int) : Option Float :=
  go 3 x exponent
where
  go : Nat → Float → Int → Option Float
    | 0, x, _ => some x
    | steps + 1, x, exponent =>
      if exponent.natAbs ≤ 308 then
        if exponent < 0 then some (x / tenTo exponent.natAbs)
        else
          let product := x * tenTo exponent.natAbs
          if product.isInf then none else some product
      else if x == 0.0 then some x
      else if exponent < 0 then go steps (x / tenTo 308) (exponent + 308)
      else none

/-- The largest exponent that is looked at. -/
def exponentLimit : Nat := UInt32.size / 2 - 1

/-- The value of an exponent's digits, or how many are left when it passes the limit. -/
def exponentValue : Nat → List Char → Except Nat Nat
  | value, [] => .ok value
  | value, c :: cs =>
    let next := value * 10 + digitValue c
    if next ≤ exponentLimit then exponentValue next cs else .error cs.length

namespace Numeral

/-- The floating-point number `significand * 10^exponent` under the numeral's sign. -/
def ofParts (n : Numeral) (significand : Nat) (exponent : Int) : Denoted :=
  match scaled significand.toUInt64.toFloat exponent with
  | some x => .floating (if n.isNegative then -x else x)
  | none => .tooLarge 0

/-- Applies the written exponent to `significand * 10^start`. -/
def withExponent (n : Numeral) (significand : Nat) (start : Int) : Denoted :=
  match n.exponent with
  | none => n.ofParts significand start
  | some e =>
    match exponentValue 0 e.digits with
    | .ok value => n.ofParts significand (if e.isNegative then start - value else start + value)
    | .error unread =>
      if significand ≠ 0 && !e.isNegative then .tooLarge unread
      else .floating (if n.isNegative then -0.0 else 0.0)

/-- What the number denotes.  Of its digits as many count as fit into 64 bits: one left over
before the point is worth a power of ten, one after it nothing. -/
def value (n : Numeral) : Denoted :=
  let (significand, surplus) := absorb 0 n.whole
  match n.fraction, n.exponent with
  | none, none =>
    -- too large for 64 bits: no longer an integer, even without a point
    if surplus ≠ [] then n.ofParts significand surplus.length
    else if !n.isNegative then .integer significand
    else if 0 < significand && significand ≤ UInt64.size / 2 then .integer (-significand)
    else .floating (-significand.toUInt64.toFloat)
  | none, some _ => n.withExponent significand surplus.length
  | some fraction, _ =>
    let (significand, dropped) := absorb significand fraction
    let places : Int := fraction.length - dropped.length
    n.withExponent significand (surplus.length - places)

end Numeral

end Keyring.Document
