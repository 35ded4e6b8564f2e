/-!
# Binary numbers of 64 bits

A finite binary64 number is a sign and a whole number of smallest units, where
the smallest unit is two to the power of -1074.  All arithmetic is on natural
numbers: an exact quotient is taken in smallest units and rounded to 53
significant bits, a tie going to the even neighbour.
-/

namespace DatasetLineage

/-- A finite binary64 number: a sign and a multiple of the smallest unit. -/
structure Binary64 where
  negative : Bool
  units : Nat
deriving DecidableEq, Inhabited

namespace Binary64

def unitsPerOne : Nat := Nat.pow 2 1074

/-- The first number of smallest units that is too large to be finite. -/
def overflow : Nat := Nat.pow 2 2098

def zero (negative : Bool) : Binary64 := ⟨negative, 0⟩

/-- The distance from a magnitude to the next one, in smallest units. -/
def spacing (units : Nat) : Nat :=
  Nat.pow 2 (units.log2 - 52)

/-- A quotient rounded to the nearest whole number, a tie to the even one. -/
def roundDiv (numerator denominator : Nat) : Nat :=
  let quotient := numerator / denominator
  let twice := 2 * (numerator % denominator)
  if twice < denominator then quotient
  else if twice = denominator then quotient + quotient % 2
  else quotient + 1

/-- The magnitude nearest to a quotient, unless it is too large. -/
def roundUnits? (numerator denominator : Nat) : Option Nat :=
  let scaled := numerator * unitsPerOne
  let grid := spacing (scaled / denominator)
  let units := roundDiv scaled (denominator * grid) * grid
  if units < overflow then some units else none

/-- The number nearest to a quotient, unless it is too large. -/
def ofRatio? (negative : Bool) (numerator denominator : Nat) : Option Binary64 :=
  (roundUnits? numerator denominator).map fun units => ⟨negative, units⟩

/-- The number nearest to a whole number, unless it is too large. -/
def ofNat? (negative : Bool) (value : Nat) : Option Binary64 :=
  ofRatio? negative value 1

/-- The number nearest to `digits` times a power of ten, unless it is too large.
Beyond the exponents that can matter the result is zero or too large. -/
def ofDecimal? (negative : Bool) (digits : Nat) (exponent : Int) : Option Binary64 :=
  if digits = 0 ∨ exponent < -400 - (digits.log2 : Int) then some (zero negative)
  else if 400 < exponent then none
  else if 0 ≤ exponent then ofNat? negative (digits * Nat.pow 10 exponent.toNat)
  else ofRatio? negative digits (Nat.pow 10 (-exponent).toNat)

/-- The product of a number and the number nearest to a power of ten, unless it is
too large. -/
def timesPowerOfTen? (value : Binary64) (exponent : Nat) : Option Binary64 := do
  let power ← roundUnits? (Nat.pow 10 exponent) 1
  ofRatio? value.negative (value.units * power) (unitsPerOne * unitsPerOne)

/-- The quotient of a number and the number nearest to a power of ten. -/
def overPowerOfTen? (value : Binary64) (exponent : Nat) : Option Binary64 := do
  let power ← roundUnits? (Nat.pow 10 exponent) 1
  ofRatio? value.negative value.units power

end Binary64

end DatasetLineage
