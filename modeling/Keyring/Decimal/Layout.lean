/-
  Keyring.Decimal.Layout
  ────────────────────────────────
  **HOW A FLOATING-POINT NUMBER IS WRITTEN.**

  Its shortest digits, in one of two layouts.  From 1e-5 up to (not
  including) 1e16 the point stands among the digits, and a whole number
  ends in `.0`; otherwise one digit stands before the point and a signed
  exponent follows: `1e+16`, `1.5e-7`.
-/
import Keyring.Decimal.Shortest

namespace Keyring.Decimal

/-- The decimal digits of a number as text. -/
def digitsText (n : Nat) : String :=
  String.ofList (Nat.toDigits 10 n)

/-- A text of zeros. -/
def zeros (n : Nat) : String :=
  String.ofList (List.replicate n '0')

/-- The digits with the point among them; `scale` is the place of the first digit, 0 for ones. -/
def positional (digits : List Char) (scale : Int) : String :=
  if scale < 0 then
    "0." ++ zeros (-scale - 1).toNat ++ String.ofList digits
  else
    let places := scale.toNat + 1
    let whole := String.ofList (digits.take places) ++ zeros (places - digits.length)
    match digits.drop places with
    | [] => whole ++ ".0"
    | fraction => whole ++ "." ++ String.ofList fraction

/-- One digit, a point and the others if there are any, and the exponent with its sign. -/
def scientific (digits : List Char) (scale : Int) : String :=
  let leading := String.ofList (digits.take 1)
  let others := digits.drop 1
  let significand := if others.isEmpty then leading else leading ++ "." ++ String.ofList others
  let sign := if scale < 0 then "-" else "+"
  significand ++ "e" ++ sign ++ digitsText scale.natAbs

/-- The text of a positive decimal. -/
def Digits.text (d : Digits) : String :=
  let digits := Nat.toDigits 10 d.digits
  let scale := d.exponent + digits.length - 1
  if -5 ≤ scale && scale < 16 then positional digits scale else scientific digits scale

/-- The highest of sixty-four bits, which is the sign of a floating-point number. -/
def signBit : Nat := Nat.pow 2 63

/-- The text of a finite floating-point number; zero keeps its sign. -/
def floatText (x : Float) : String :=
  let bits := x.toBits.toNat
  let sign := if signBit ≤ bits then "-" else ""
  let magnitude := bits % signBit
  if magnitude = 0 then sign ++ "0.0"
  else sign ++ (Binary.ofBits magnitude).shortest.text

end Keyring.Decimal
