/-
Double precision numbers as exact data.

A `Double` is a sign, a whole mantissa and a power of two. Arithmetic is exact on whole numbers and
then rounded once, to the nearest double, a tie to the even mantissa:

* `roundDiv` — the whole number nearest to a quotient;
* `Double.ofRatio` — the double nearest to a quotient, none when it is too large;
* `Double.times`, `Double.dividedBy` — products and quotients of doubles;
* `Double.ofDecimal` — what a decimal numeral with a whole significand and a power of ten means
  when it is read by one multiplication or division of doubles. For short numerals this is the
  nearest double; for long ones it may be off by a few units, and it is this value that readers of
  the format agree on.
-/
namespace LintDiscovery

/-- The finite number `± mantissa · 2 ^ exponent`. Values built here keep `mantissa < 2 ^ 53` and
`-1074 ≤ exponent ≤ 971`, with the least exponent for small mantissas. -/
structure Double where
  negative : Bool
  mantissa : Nat
  exponent : Int
  deriving DecidableEq, Repr

namespace Decimal

/-- The whole number nearest to `num / den`; a tie goes to the even one. -/
def roundDiv (num den : Nat) : Nat :=
  let q := num / den
  let r := num % den
  if 2 * r < den then q
  else if den < 2 * r then q + 1
  else if q % 2 = 0 then q else q + 1

/-- The quotient `num / den` divided by `2 ^ e`, again as a quotient. -/
def unscale (num den : Nat) (e : Int) : Nat × Nat :=
  if 0 ≤ e then (num, den * Nat.pow 2 e.toNat) else (num * Nat.pow 2 (-e).toNat, den)

/-- The power of two that one unit of the mantissa stands for in a double near `num / den`. -/
def unitExponent (num den : Nat) : Int :=
  let guess : Int := (num.log2 : Int) - den.log2 - 52
  let (n, d) := unscale num den guess
  max (if n / d < Nat.pow 2 52 then guess - 1 else guess) (-1074)

end Decimal

namespace Double

open Decimal

/-- Zero with a sign. -/
def zero (negative : Bool) : Double := ⟨negative, 0, -1074⟩

/-- The double nearest to `± num / den`; none when that is above the largest double. -/
def ofRatio (negative : Bool) (num den : Nat) : Option Double :=
  if num = 0 then some (zero negative)
  else
    let e := unitExponent num den
    let (n, d) := unscale num den e
    let m := roundDiv n d
    let (m, e) := if m = Nat.pow 2 53 then (Nat.pow 2 52, e + 1) else (m, e)
    if 971 < e then none else some ⟨negative, m, e⟩

/-- The size of a double as a quotient of whole numbers. -/
def ratio (d : Double) : Nat × Nat :=
  if 0 ≤ d.exponent then (d.mantissa * Nat.pow 2 d.exponent.toNat, 1)
  else (d.mantissa, Nat.pow 2 (-d.exponent).toNat)

/-- The same size with the given sign. -/
def signed (negative : Bool) (d : Double) : Double :=
  { d with negative := negative }

/-- The size of a product, none when it is too large. -/
def times (a b : Double) : Option Double :=
  ofRatio false (a.ratio.1 * b.ratio.1) (a.ratio.2 * b.ratio.2)

/-- The size of a quotient by a positive double, none when it is too large. -/
def dividedBy (a b : Double) : Option Double :=
  ofRatio false (a.ratio.1 * b.ratio.2) (a.ratio.2 * b.ratio.1)

/-- The double nearest to a power of ten, none above `10 ^ 308`. -/
def powerOfTen (n : Nat) : Option Double :=
  ofRatio false (Nat.pow 10 n) 1

/-- The size of `d / 10 ^ n`, by division with powers of ten up to `10 ^ 308`. From a significand
below `2 ^ 64` two such divisions already arrive at zero. -/
def scaleDown (d : Double) (n : Nat) : Option Double := do
  if n ≤ 308 then d.dividedBy (← powerOfTen n)
  else if n ≤ 616 then (← d.dividedBy (← powerOfTen 308)).dividedBy (← powerOfTen (n - 308))
  else return zero false

/-- The size of `d · 10 ^ n`, none when it is too large. -/
def scaleUp (d : Double) (n : Nat) : Option Double := do
  if n ≤ 308 then d.times (← powerOfTen n)
  else if d.mantissa = 0 then return d
  else none

/-- The double read from the numeral `± significand · 10 ^ exponent`, none when it is too large. -/
def ofDecimal (negative : Bool) (significand : Nat) (exponent : Int) : Option Double := do
  let d ← ofRatio false significand 1
  let d ← if 0 ≤ exponent then d.scaleUp exponent.toNat else d.scaleDown (-exponent).toNat
  return d.signed negative

end Double

end LintDiscovery
