import DatasetLineage.Decimal.Binary

/-!
# Shortest decimal text

A binary number is written with as few decimal digits as still tell it apart from
its neighbours.  Of all decimal grids the coarsest one is taken that has a point
among the reals that round to the number, and on it the point nearest to the
number.  Every comparison is between natural numbers.
-/

namespace DatasetLineage

/-- A decimal number: `digits` times ten to the power of `exponent`. -/
structure Decimal where
  digits : Nat
  exponent : Int
deriving DecidableEq, Inhabited

namespace Decimal

/-- The smallest whole number of 53 significant bits. -/
def leastSignificand : Nat := Nat.pow 2 52

/-- The point of the grid of multiples of ten to the power of `exponent` that is
nearest to a magnitude and rounds to it, if there is one.  Lengths are in half
units, scaled up by the denominator of the grid. -/
def onGrid? (units : Nat) (exponent : Int) : Option Decimal :=
  let spacing := Binary64.spacing units
  let spacingBelow :=
    if units = spacing * leastSignificand ∧ 1 < spacing then spacing / 2 else spacing
  let scale := Nat.pow 10 (-exponent).toNat
  let grid := Nat.pow 10 exponent.toNat * (2 * Binary64.unitsPerOne)
  let target := 2 * units * scale
  let low := (2 * units - spacingBelow) * scale
  let high := (2 * units + spacing) * scale
  let endsRound := units / spacing % 2 = 0
  let rounds := fun (point : Nat) =>
    0 < point ∧
      if endsRound then low ≤ point * grid ∧ point * grid ≤ high
      else low < point * grid ∧ point * grid < high
  let below := target / grid
  let above := below + 1
  if rounds below then
    if rounds above then
      let shortfall := target - below * grid
      let excess := above * grid - target
      if shortfall < excess ∨ shortfall = excess ∧ below % 2 = 0 then some ⟨below, exponent⟩
      else some ⟨above, exponent⟩
    else some ⟨below, exponent⟩
  else if rounds above then some ⟨above, exponent⟩
  else none

/-- The exponents of the grids that can matter, the coarsest first. -/
def gridExponents : List Int :=
  (List.range 634).map fun (index : Nat) => 309 - (index : Int)

/-- The shortest decimal of a magnitude other than zero. -/
def shortest (units : Nat) : Decimal :=
  (gridExponents.findSome? (onGrid? units)).getD ⟨0, 0⟩

end Decimal

/-- How a format writes numbers that are not whole. -/
structure FloatNotation where
  /-- Numbers from one up whose point would stand after more digits than this are
  written with an exponent. -/
  mostWholeDigits : Int
  /-- Numbers below one with this many zeros after the point, or more, are written
  with an exponent. -/
  leastZeros : Int
  /-- Whether an exponent that is not negative carries a plus sign. -/
  plusSign : Bool
deriving DecidableEq

namespace FloatNotation

def magnitudeText (style : FloatNotation) (decimal : Decimal) : String :=
  let digits := toString decimal.digits
  let count : Int := digits.length
  let point := count + decimal.exponent
  if 0 < point ∧ point ≤ style.mostWholeDigits then
    if count ≤ point then
      digits ++ String.ofList (List.replicate (point - count).toNat '0') ++ ".0"
    else
      String.ofList (digits.toList.take point.toNat) ++ "." ++
        String.ofList (digits.toList.drop point.toNat)
  else if -style.leastZeros < point ∧ point ≤ 0 then
    "0." ++ String.ofList (List.replicate (-point).toNat '0') ++ digits
  else
    let leading := String.ofList (digits.toList.take 1)
    let others := String.ofList (digits.toList.drop 1)
    let significand := if others = "" then leading else leading ++ "." ++ others
    let exponent := point - 1
    let sign := if exponent < 0 then "-" else if style.plusSign then "+" else ""
    significand ++ "e" ++ sign ++ toString exponent.natAbs

def text (style : FloatNotation) (value : Binary64) : String :=
  let magnitude :=
    if value.units = 0 then "0.0" else style.magnitudeText (Decimal.shortest value.units)
  if value.negative then "-" ++ magnitude else magnitude

end FloatNotation

end DatasetLineage
