/-
The shortest decimal that reads back as a given double.

The reals that round to a double form an interval around it, its ends included when the mantissa
is even. For one digit, two digits and so on, `shortest` looks at the two neighbours of the value on
the decimal grid of that many digits; the first grid with a neighbour inside the interval wins, of
two such neighbours the nearer one, and of two equally near the even one.

`Layout` says where positional notation ends, and `Layout.write` puts digits and power on paper.
-/
import LintDiscovery.Decimal.Double

namespace LintDiscovery

namespace Decimal

/-- A whole number, the digits, times a power of ten. -/
structure Numeral where
  digits : Nat
  power : Int
  deriving DecidableEq, Repr

/-- Whether `a · 10 ^ p ≤ num / den`. -/
def powerAtMost (p : Int) (num den : Nat) : Bool :=
  if 0 ≤ p then Nat.pow 10 p.toNat * den ≤ num else den ≤ num * Nat.pow 10 (-p).toNat

/-- The power of ten of the first digit of `num / den`. The bits of the quotient give it up to one;
`30103 / 100000` is the logarithm of two to base ten from above, close enough for doubles. -/
def leadingPower (num den : Nat) : Int :=
  let guess := (((num.log2 : Int) - den.log2) * 30103) / 100000
  if powerAtMost (guess + 1) num den then guess + 1
  else if powerAtMost guess num den then guess
  else guess - 1

/-- The distance between two whole numbers. -/
def distance (a b : Nat) : Nat := (a - b) + (b - a)

/-- The better of two neighbouring grid points `c` and `c + 1`, measured in a common unit: `value`
is the number, `step` the grid, and only points inside the interval count. -/
def nearer (inside : Nat → Bool) (value step c : Nat) : Option Nat :=
  match inside (c * step), inside ((c + 1) * step) with
  | false, false => none
  | true, false => some c
  | false, true => some (c + 1)
  | true, true =>
    let below := distance value (c * step)
    let above := distance value ((c + 1) * step)
    if below < above then some c
    else if above < below then some (c + 1)
    else if c % 2 = 0 then some c else some (c + 1)

/-- The decimal with steps of `10 ^ p` that reads back as `m · 2 ^ e`, if there is one. All is
measured in a unit that makes the value, the interval and the grid whole: `2 ^ (e - 2)` and `10 ^ p`
are both multiples of it. -/
def onGrid (m : Nat) (e p : Int) : Option Numeral :=
  let twos := (2 - e).toNat
  let tens := (-p).toNat
  let quarter := Nat.pow 2 (e - 2 + twos).toNat * Nat.pow 10 tens
  let step := Nat.pow 10 (p + tens).toNat * Nat.pow 2 twos
  let low := (if m = Nat.pow 2 52 ∧ -1074 < e then 4 * m - 1 else 4 * m - 2) * quarter
  let high := (4 * m + 2) * quarter
  let value := 4 * m * quarter
  let inside := fun x => if m % 2 = 0 then low ≤ x && x ≤ high else low < x && x < high
  (nearer inside value step (value / step)).map fun c => ⟨c, p⟩

/-- Zeros at the end of the digits move into the power. -/
def trimmed : Nat → Numeral → Numeral
  | 0, d => d
  | fuel + 1, d =>
    if d.digits ≠ 0 ∧ d.digits % 10 = 0 then trimmed fuel ⟨d.digits / 10, d.power + 1⟩ else d

/-- The shortest decimal that reads back as the double; seventeen digits always do. -/
def shortest (d : Double) : Numeral :=
  if d.mantissa = 0 then ⟨0, 0⟩
  else
    let first := leadingPower d.ratio.1 d.ratio.2
    let found := (List.range 17).findSome? fun (i : Nat) => onGrid d.mantissa d.exponent (first - i)
    trimmed 17 (found.getD ⟨0, 0⟩)

/-- How digits and power are put on paper: the powers of the first digit from `least` on and below
`bound` are written positionally, all others with an exponent. -/
structure Layout where
  least : Int
  bound : Int

namespace Layout

/-- Digits with a point behind the first `n` of them; both sides have at least one digit. -/
def pointAfter (n : Nat) (digits : List Char) : List Char :=
  let whole := digits.take n ++ List.replicate (n - digits.length) '0'
  let part := digits.drop n
  whole ++ '.' :: (if part.isEmpty then ['0'] else part)

/-- An exponent with its sign. -/
def exponent (e : Int) : List Char :=
  'e' :: (if e < 0 then '-' else '+') :: Nat.toDigits 10 e.natAbs

/-- A numeral on paper. -/
def write (layout : Layout) (d : Numeral) : List Char :=
  let digits := Nat.toDigits 10 d.digits
  let first : Int := d.power + digits.length - 1
  if layout.least ≤ first ∧ first < layout.bound then
    if 0 ≤ first then pointAfter (first.toNat + 1) digits
    else '0' :: '.' :: List.replicate ((-first).toNat - 1) '0' ++ digits
  else
    match digits with
    | [d] => d :: exponent first
    | d :: rest => d :: '.' :: rest ++ exponent first
    | [] => []

end Layout

end Decimal

/-- The text of a double: a minus sign where it has one, then the shortest decimal. -/
def Double.chars (layout : Decimal.Layout) (d : Double) : List Char :=
  (if d.negative then ['-'] else []) ++ layout.write (Decimal.shortest d)

end LintDiscovery
