/-! Finite doubles and the one rounding they need.
A double is kept as a mantissa times a power of two. Every operation is exact on ratios of natural
numbers and then rounds once, to the nearest double, a tie going to the even mantissa. -/
namespace DocumentViews

/-- A finite double: the mantissa times two to the exponent, with a sign that zero has as well. -/
structure Binary64 where
  negative : Bool
  mantissa : Nat
  exponent : Int
deriving DecidableEq, Inhabited

namespace Binary64

def twoTo (count : Nat) : Nat := Nat.pow 2 count

def tenTo (count : Nat) : Nat := Nat.pow 10 count

def leastExponent : Int := -1074

def greatestExponent : Int := 971

def overPower (num den : Nat) (exponent : Int) : Nat × Nat :=
  if 0 ≤ exponent then (num, den * twoTo exponent.toNat) else (num * twoTo (-exponent).toNat, den)

/-- A ratio rounded to a natural number, a half going to the even neighbour. -/
def nearest (num den : Nat) : Nat :=
  let down := num / den
  let twice := 2 * (num % den)
  if twice < den then down else if den < twice then down + 1 else down + down % 2

/-- The exponent of the double next to a positive ratio: 53 bits of it, or as many as there are. -/
def exponentFor (num den : Nat) : Int :=
  let guess : Int := (num.log2 : Int) - den.log2
  let scaled := overPower num den guess
  max ((if scaled.2 ≤ scaled.1 then guess else guess - 1) - 52) leastExponent

/-- The double nearest to a ratio, or none when it would be infinite. -/
def ofRatio (negative : Bool) (num den : Nat) : Option Binary64 :=
  if num = 0 then some ⟨negative, 0, leastExponent⟩
  else
    let exponent := exponentFor num den
    let scaled := overPower num den exponent
    let mantissa := nearest scaled.1 scaled.2
    let rounded : Binary64 :=
      if mantissa = twoTo 53 then ⟨negative, twoTo 52, exponent + 1⟩
      else ⟨negative, mantissa, exponent⟩
    if greatestExponent < rounded.exponent then none else some rounded

def ratio (d : Binary64) : Nat × Nat :=
  if 0 ≤ d.exponent then (d.mantissa * twoTo d.exponent.toNat, 1)
  else (d.mantissa, twoTo (-d.exponent).toNat)

def isZero (d : Binary64) : Bool := d.mantissa == 0

/-- The product, rounded; none when it would be infinite. The sign is that of the first factor. -/
def scaleUp (d factor : Binary64) : Option Binary64 :=
  ofRatio d.negative (d.ratio.1 * factor.ratio.1) (d.ratio.2 * factor.ratio.2)

/-- The quotient, rounded; none when it would be infinite. The sign is that of the dividend. -/
def scaleDown (d factor : Binary64) : Option Binary64 :=
  ofRatio d.negative (d.ratio.1 * factor.ratio.2) (d.ratio.2 * factor.ratio.1)

def ofInt (value : Int) : Option Binary64 :=
  ofRatio (value < 0) value.natAbs 1

def greatestTen : Nat := 308

def tenPower (count : Nat) : Option Binary64 := ofRatio false (tenTo count) 1

def downByTen (d : Binary64) (count : Nat) : Option Binary64 :=
  (tenPower count).bind d.scaleDown

/-- A double divided by any power of ten, in steps of powers that a double holds. -/
def downByTens (d : Binary64) (count : Nat) : Option Binary64 :=
  if count ≤ greatestTen then d.downByTen count
  else if d.isZero then some d
  else (d.downByTen greatestTen).bind fun smaller => smaller.downByTens (count - greatestTen)
termination_by count
decreasing_by
  have positive : 0 < greatestTen := by decide
  omega

/-- A whole number times a power of ten: the number, the power and their product or quotient are
rounded one after the other. None when the result would be infinite. -/
def ofDecimal (negative : Bool) (significand : Nat) (exponent : Int) : Option Binary64 :=
  (ofRatio negative significand 1).bind fun d =>
    if 0 ≤ exponent then
      if exponent.toNat ≤ greatestTen then (tenPower exponent.toNat).bind d.scaleUp
      else if d.isZero then some d else none
    else d.downByTens (-exponent).toNat

end Binary64

end DocumentViews
