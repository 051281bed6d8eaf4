/-
  Magnitudes of doubles: a significand of at most 53 bits times a power of two.

  * `Double.ofRatio?` is the double nearest to a quotient, if it is in range;
  * `Double.shortest` gives the fewest decimal digits that are read as a double: on the coarsest
    decimal grid that has a point in the interval which rounds to it, the nearer of the double's
    two neighbours;
  * `roundToDouble?` is the double nearest to an integer, itself an integer.
-/
import FileTags.Number.Rounding

namespace FileTags.Number

/-- The number `significand` times two to the power `exponent`. -/
structure Double where
  significand : Nat
  exponent : Int
deriving DecidableEq

namespace Double

/-- The number of bits in a significand. -/
def precision : Nat := 53

/-- The least exponent. -/
def leastExponent : Int := -1074

/-- The largest exponent. -/
def greatestExponent : Int := 971

/-! ## From quotients -/

/-- A quotient times a power of two, as numerator and denominator. -/
def scale (num den : Nat) (power : Int) : Nat × Nat :=
  let factor := Nat.pow 2 power.natAbs
  if power < 0 then (num, den * factor) else (num * factor, den)

/-- The exponent at which the significand of a quotient has its full number of bits, or the least
    one. -/
def exponentOf (num den : Nat) : Int :=
  let guess : Int := (num.log2 : Int) - den.log2 - precision
  let (n, d) := scale num den (-guess)
  max leastExponent (if n / d < Nat.pow 2 precision then guess else guess + 1)

/-- The double nearest to a quotient, the even one of two. -/
def ofRatio? (num den : Nat) : Option Double :=
  let e := exponentOf num den
  let (n, d) := scale num den (-e)
  let m := roundDiv n d
  let rounded : Double := if m = Nat.pow 2 precision then ⟨Nat.pow 2 (precision - 1), e + 1⟩
    else ⟨m, e⟩
  if rounded.exponent ≤ greatestExponent then some rounded else none

/-- The integer part of a double. -/
def floor (x : Double) : Nat :=
  let factor := Nat.pow 2 x.exponent.natAbs
  if x.exponent < 0 then x.significand / factor else x.significand * factor

/-! ## To decimal digits -/

/-- Four times a double, and four times the ends of the interval that rounds to it, over one
    denominator. -/
structure Interval where
  low : Nat
  value : Nat
  high : Nat
  den : Nat
  /-- Whether the ends belong to it. -/
  closed : Bool

/-- The interval that rounds to a double: half way to its neighbours. -/
def interval (x : Double) : Interval :=
  let (unit, den) := scale 1 1 x.exponent
  let smallest := Nat.pow 2 (precision - 1)
  let below := if x.significand = smallest ∧ leastExponent < x.exponent then 1 else 2
  { low := (4 * x.significand - below) * unit
    value := 4 * x.significand * unit
    high := (4 * x.significand + 2) * unit
    den := 4 * den
    closed := x.significand % 2 = 0 }

/-- Whether the quotient `num / den` lies in an interval. -/
def Interval.contains (i : Interval) (num den : Nat) : Bool :=
  let (low, q, high) := (i.low * den, num * i.den, i.high * den)
  if i.closed then low ≤ q && q ≤ high else low < q && q < high

/-- The point of the grid of the multiples of ten to the power `place` that is in an interval and
    nearest to its double, as a multiple. -/
def Interval.gridPoint? (i : Interval) (place : Int) : Option Nat :=
  let unit := Nat.pow 10 place.natAbs
  let (num, den) := if place < 0 then (i.value * unit, i.den) else (i.value, i.den * unit)
  let inside (k : Nat) : Bool := if place < 0 then i.contains k unit else i.contains (k * unit) 1
  let near := roundDiv num den
  let down := num / den
  if inside near then some near
  else if inside down then some down
  else if inside (down + 1) then some (down + 1)
  else none

/-- The power of ten at which the first digit of a double stands, which is not zero. Below one it
    shows in the digits before the point of the inverse. -/
def leadingPlace (x : Double) : Int :=
  let i := x.interval
  if i.den ≤ i.value then Int.ofNat (decimal (i.value / i.den)).length - 1
  else Int.neg (Int.ofNat (decimal ((i.den - 1) / i.value)).length)

/-- The number of digits that always suffice. -/
def enoughDigits : Nat := 17

/-- The fewest digits that are read as a double, and the power of ten at which the last one
    stands. -/
def shortest (x : Double) : Nat × Int :=
  let lead := x.leadingPlace
  let places := (List.range enoughDigits).map fun k => lead - Int.ofNat k
  (places.findSome? fun place => (x.interval.gridPoint? place).map (·, place)).getD (0, 0)

end Double

/-- The double nearest to an integer, if it is in the range of doubles. -/
def roundToDouble? (n : Nat) : Option Nat :=
  if n = 0 then some 0 else (Double.ofRatio? n 1).map Double.floor

end FileTags.Number
