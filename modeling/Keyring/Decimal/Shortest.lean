/-
  Keyring.Decimal.Shortest
  ────────────────────────────────
  **THE FEWEST DIGITS THAT READ BACK.**

  A binary floating-point number `m * 2^e` stands for an interval of
  reals: those that round to it.  Its shortest decimal is the number with
  the fewest digits in that interval, and the nearest of those to the
  number itself (of two equally near, the one with an even last digit).

  For 1, 2, … digits the search looks at the two decimals of that length
  next to the number.  The first length with a decimal inside the interval
  wins.  Everything is exact arithmetic on natural numbers.
-/

namespace Keyring.Decimal

/-! ## §1. Binary numbers. -/

/-- The positive number `mantissa * 2^exponent`. -/
structure Binary where
  mantissa : Nat
  exponent : Int
  /-- The next number below is only half as far away as the next one above. -/
  closerBelow : Bool
  deriving DecidableEq, Repr

/-- How many fractions there are: they have fifty-two bits. -/
def fractionCount : Nat := Nat.pow 2 52

/-- How many exponents there are: they have eleven bits. -/
def fieldCount : Nat := Nat.pow 2 11

/-- The number with these bits, its sign left out: the exponent and then the fraction. -/
def Binary.ofBits (bits : Nat) : Binary :=
  let field : Nat := bits / fractionCount % fieldCount
  let fraction : Nat := bits % fractionCount
  if field = 0 then ⟨fraction, -1074, false⟩
  else ⟨fractionCount + fraction, (field : Int) - 1075, fraction = 0 && 1 < field⟩

/-- The decimal `digits * 10^exponent`. -/
structure Digits where
  digits : Nat
  exponent : Int
  deriving DecidableEq, Repr

/-! ## §2. Exact comparison. -/

/-- The fraction `a * 2^i / 10^j` as numerator and denominator. -/
def ratio (a : Nat) (i j : Int) : Nat × Nat :=
  (a * Nat.pow 2 i.toNat * Nat.pow 10 (-j).toNat, Nat.pow 2 (-i).toNat * Nat.pow 10 j.toNat)

/-- How `d * 10^j` compares with `a * 2^i`. -/
def compareTo (d : Nat) (j : Int) (a : Nat) (i : Int) : Ordering :=
  let (numerator, denominator) := ratio a i j
  compare (d * denominator) numerator

/-- The decimal lies in the interval of reals that round to `x`; the ends, half-way to the
neighbours, belong to it exactly when the mantissa of `x` is even. -/
def Binary.holds (x : Binary) (d : Digits) : Bool :=
  let low := if x.closerBelow then 4 * x.mantissa - 1 else 4 * x.mantissa - 2
  let fromLow := compareTo d.digits d.exponent low (x.exponent - 2)
  let fromHigh := compareTo d.digits d.exponent (4 * x.mantissa + 2) (x.exponent - 2)
  if x.mantissa % 2 = 0 then fromLow != .lt && fromHigh != .gt
  else fromLow == .gt && fromHigh == .lt

/-! ## §3. The search. -/

/-- How many digits a number has; zero has none. -/
def countDigits (n : Nat) : Nat :=
  if n = 0 then 0 else (Nat.toDigits 10 n).length

/-- The least `k` with `x < 10^k`. -/
def Binary.magnitude (x : Binary) : Int :=
  let (numerator, denominator) := ratio x.mantissa x.exponent 0
  let whole := numerator / denominator
  if whole = 0 then go denominator 400 numerator 0 else countDigits whole
where
  /-- Below one: counts the zeros that follow the point. -/
  go (denominator : Nat) : Nat → Nat → Int → Int
    | 0, _, k => k
    | steps + 1, numerator, k =>
      if denominator ≤ numerator * 10 then k else go denominator steps (numerator * 10) (k - 1)

/-- Of the two decimals with this exponent next to `x`, the one that reads back; of two, the
nearer one, and on a tie the even one. -/
def Binary.onGrid? (x : Binary) (exponent : Int) : Option Digits :=
  let (numerator, denominator) := ratio x.mantissa x.exponent exponent
  let below : Digits := ⟨numerator / denominator, exponent⟩
  let above : Digits := ⟨numerator / denominator + 1, exponent⟩
  match x.holds below, x.holds above with
  | false, false => none
  | true, false => some below
  | false, true => some above
  | true, true =>
    match compare (2 * (numerator % denominator)) denominator with
    | .lt => some below
    | .gt => some above
    | .eq => some (if below.digits % 2 = 0 then below else above)

/-- Moves zeros at the end of the digits into the exponent. -/
def Digits.strip (d : Digits) : Digits :=
  go d.digits d
where
  go : Nat → Digits → Digits
    | 0, d => d
    | steps + 1, d =>
      if d.digits % 10 = 0 then go steps ⟨d.digits / 10, d.exponent + 1⟩ else d

/-- The fewest digits that read back as `x`.  Seventeen always do. -/
def Binary.shortest (x : Binary) : Digits :=
  let found := (List.range 18).findSome? fun (more : Nat) => x.onGrid? (x.magnitude - 1 - more)
  (found.getD ⟨x.mantissa, x.exponent⟩).strip

end Keyring.Decimal
