/-!
# Digits

The value of hexadecimal digits in either case, and of texts that are made of
them.
-/

namespace DatasetLineage.Text

def hexValue? (c : Char) : Option Nat :=
  if '0' ≤ c ∧ c ≤ '9' then some (c.toNat - '0'.toNat)
  else if 'a' ≤ c ∧ c ≤ 'f' then some (c.toNat - 'a'.toNat + 10)
  else if 'A' ≤ c ∧ c ≤ 'F' then some (c.toNat - 'A'.toNat + 10)
  else none

def digitValue? (base : Nat) (c : Char) : Option Nat :=
  (hexValue? c).filter (· < base)

/-- The number that a list of digits stands for, zero if there are none. -/
def ofDigits? (base : Nat) (digits : List Char) : Option Nat :=
  digits.foldlM (fun value c => (digitValue? base c).map (value * base + ·)) 0

/-- The first number that 64 bits do not hold. -/
def wordLimit : Nat := 0x10000000000000000

/-- The whole number of up to 64 bits that a text spells, perhaps after a plus
sign. -/
def wordOfText? (text : String) : Option Nat := do
  let digits := match text.toList with
    | '+' :: rest => rest
    | chars => chars
  if digits.isEmpty then none
  else (ofDigits? 10 digits).filter (· < wordLimit)

end DatasetLineage.Text
