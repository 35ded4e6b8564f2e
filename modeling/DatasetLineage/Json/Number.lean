import DatasetLineage.Json.Basic
import DatasetLineage.Text.Digit

/-!
# Numbers in JSON text

A number is a sign, whole digits without needless zeros, perhaps a fraction and
perhaps an exponent.  Without fraction and exponent it is a whole number if it
fits 64 bits.  All others are read as binary numbers in two steps: the leading
digits that fit 64 bits are rounded, and so is their product with a power of ten.
-/

namespace DatasetLineage

namespace Json

/-- A number as it is written. -/
structure Numeral where
  negative : Bool
  whole : List Char
  fraction : List Char
  /-- The exponent if one is written: whether it is negative, and its digits. -/
  exponent : Option (Bool × List Char)

namespace Numeral

/-- An exponent with its mark and sign. -/
def exponent? : List Char → Option (Bool × List Char)
  | [] => none
  | '+' :: digits => some (false, digits)
  | '-' :: digits => some (true, digits)
  | digits => some (false, digits)

def areDigits (chars : List Char) : Bool :=
  !chars.isEmpty && chars.all Char.isDigit

/-- The parts after the whole digits of a number, which is fraction and exponent. -/
def ofTail? (negative : Bool) (whole tail : List Char) : Option Numeral :=
  let split := fun (chars : List Char) => chars.span fun c => c ≠ 'e' ∧ c ≠ 'E'
  let withExponent := fun (fraction rest : List Char) =>
    match rest with
    | [] => some ⟨negative, whole, fraction, none⟩
    | _ :: written => do
        let (sign, digits) ← exponent? written
        guard (areDigits digits)
        some ⟨negative, whole, fraction, some (sign, digits)⟩
  match tail with
  | '.' :: rest => do
      let (fraction, rest) := split rest
      guard (areDigits fraction)
      withExponent fraction rest
  | [] => withExponent [] []
  | c :: rest =>
      if c = 'e' ∨ c = 'E' then withExponent [] (c :: rest) else none

def ofChars? (chars : List Char) : Option Numeral := do
  let (negative, rest) := match chars with
    | '-' :: rest => (true, rest)
    | rest => (false, rest)
  let (whole, tail) := rest.span Char.isDigit
  guard (areDigits whole)
  guard (whole.length = 1 ∨ whole.head? ≠ some '0')
  ofTail? negative whole tail

/-- Append digits to a number as long as it fits 64 bits, and count them. -/
def appendDigits (value : Nat) : List Char → Nat × Nat
  | [] => (value, 0)
  | c :: rest =>
      let longer := value * 10 + (c.toNat - '0'.toNat)
      if longer < Text.wordLimit then
        let (final, count) := appendDigits longer rest
        (final, count + 1)
      else (value, 0)

def digitsValue (digits : List Char) : Nat :=
  digits.foldl (fun value c => value * 10 + (c.toNat - '0'.toNat)) 0

/-- The largest power of ten that a binary number comes close to. -/
def largestPower : Nat := 308

/-- The powers of ten to divide by, one after the other. -/
def divisors (exponent : Nat) : List Nat :=
  let full := (exponent - 1) / largestPower
  List.replicate full largestPower ++ [exponent - full * largestPower]

/-- Divide by a power of ten, rounding after every division.  Nothing is left of
64 bits that are divided by ten a thousand times. -/
def divideByPowerOfTen? (value : Binary64) (exponent : Nat) : Option Binary64 :=
  if 1000 < exponent then some (.zero value.negative)
  else (divisors exponent).foldlM Binary64.overPowerOfTen? value

/-- A significand times a power of ten, rounded after each step, unless it is too
large. -/
def scale? (negative : Bool) (significand : Nat) (exponent : Int) : Option Binary64 := do
  let value ← Binary64.ofNat? negative significand
  if exponent < 0 then divideByPowerOfTen? value (-exponent).toNat
  else if exponent ≤ largestPower then value.timesPowerOfTen? exponent.toNat
  else if value.units = 0 then some value
  else none

/-- The binary number that a number stands for, unless it is too large. -/
def toBinary? (numeral : Numeral) : Option Binary64 :=
  let (whole, keptWhole) := appendDigits 0 numeral.whole
  let (significand, keptFraction) := appendDigits whole numeral.fraction
  let shift : Int := (numeral.whole.length - keptWhole : Nat) - (keptFraction : Int)
  let written : Int :=
    match numeral.exponent with
    | none => 0
    | some (true, digits) => -(digitsValue digits : Int)
    | some (false, digits) => digitsValue digits
  scale? numeral.negative significand (shift + written)

/-- The number that is read: a whole number if it is written as one and fits 64
bits, which minus zero does not. -/
def toNumber? (numeral : Numeral) : Option Number :=
  let magnitude := digitsValue numeral.whole
  let isWhole := numeral.fraction.isEmpty && numeral.exponent.isNone
  if isWhole && !numeral.negative && magnitude < Text.wordLimit then
    some (.integer magnitude)
  else if isWhole && numeral.negative && magnitude != 0 && magnitude ≤ Text.wordLimit / 2 then
    some (.integer (-(magnitude : Int)))
  else numeral.toBinary?.map .binary

end Numeral

end Json

end DatasetLineage
