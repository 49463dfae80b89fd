import DocumentViews.Number.Binary64

/-! The fewest decimal digits that read back as a given double.
The reals that round to a double form an interval, its ends included when the mantissa is even.
Grids of one digit, two digits and so on are tried in turn; the first grid with a point in the
interval wins, and of two such points the nearer one. All comparisons are exact. -/
namespace DocumentViews

/-- A decimal: a whole number without trailing zeros times a power of ten. -/
structure Decimal where
  digits : Nat
  exponent : Int
deriving DecidableEq, Inhabited

namespace Decimal

def text (d : Decimal) : List Char := Nat.toDigits 10 d.digits

def leading (d : Decimal) : Int := d.exponent + d.text.length - 1

/-- Moves trailing zeros of a whole number into the exponent. -/
def normalize (digits : Nat) (exponent : Int) : Decimal :=
  if digits ≠ 0 ∧ digits % 10 = 0 then normalize (digits / 10) (exponent + 1)
  else ⟨digits, exponent⟩
termination_by digits
decreasing_by omega

end Decimal

namespace Binary64

/-- The interval of reals that round to a positive double, over one denominator. -/
structure Interval where
  low : Nat
  middle : Nat
  high : Nat
  den : Nat
  closed : Bool

/-- The interval of a double: half a step either way, and half of that below a power of two. -/
def interval (d : Binary64) : Interval :=
  let below := if d.mantissa = twoTo 52 ∧ leastExponent < d.exponent then 1 else 2
  let scale := d.exponent - 2
  let factor := twoTo scale.toNat
  { low := (4 * d.mantissa - below) * factor
    middle := 4 * d.mantissa * factor
    high := (4 * d.mantissa + 2) * factor
    den := twoTo (-scale).toNat
    closed := d.mantissa % 2 = 0 }

def Interval.holds (i : Interval) (num den : Nat) : Bool :=
  if i.closed then i.low * den ≤ num * i.den && num * i.den ≤ i.high * den
  else i.low * den < num * i.den && num * i.den < i.high * den

/-- More tens than the least double needs to reach one. -/
def liftTens : Nat := 330

/-- The power of ten at which the first digit of an interval's middle stands. -/
def Interval.leading (i : Interval) : Int :=
  ((Nat.toDigits 10 (i.middle * tenTo liftTens / i.den)).length : Int) - 1 - liftTens

/-- The point of the decimal grid `10 ^ place` that lies in the interval and next to its middle. -/
def Interval.onGrid? (i : Interval) (place : Int) : Option Nat :=
  let up := tenTo place.toNat
  let down := tenTo (-place).toNat
  let floor := i.middle * down / (i.den * up)
  let low := i.holds (floor * up) down
  let high := i.holds ((floor + 1) * up) down
  if low && high then
    let twice := 2 * (i.middle * down)
    let half := (2 * floor + 1) * (i.den * up)
    some (if twice < half then floor else if half < twice then floor + 1 else floor + floor % 2)
  else if low then some floor
  else if high then some (floor + 1)
  else none

/-- Tries grids of more and more digits, the given number of them from a first place downward. -/
def Interval.search (i : Interval) (place : Int) : Nat → Option Decimal
  | 0 => none
  | tries + 1 =>
    match i.onGrid? place with
    | some digits => some (Decimal.normalize digits place)
    | none => i.search (place - 1) tries

/-- The shortest decimal that reads back as the double's size. Seventeen digits always suffice. -/
def shortest (d : Binary64) : Decimal :=
  if d.isZero then ⟨0, 0⟩
  else (d.interval.search d.interval.leading 17).getD ⟨0, 0⟩

end Binary64

end DocumentViews
