import DatasetLineage.OrderedMap
import DatasetLineage.Text.Digit

/-!
# Dataset ids

A dataset is named by a 128-bit id.  It is written as 32 hexadecimal digits in
five groups, in lower case, and read in four spellings: the groups joined by
hyphens, the digits alone, the hyphenated form in braces, and the hyphenated
form after `urn:uuid:`.  Digits and the `urn:uuid:` mark are read in either
case.
-/

namespace DatasetLineage

/-- The first number that 128 bits do not hold. -/
def DatasetId.limit : Nat := 0x100000000000000000000000000000000

/-- The 128-bit name of a dataset. -/
structure DatasetId where
  value : Nat
  bounded : value < DatasetId.limit
deriving DecidableEq

namespace DatasetId

instance : Inhabited DatasetId := ⟨⟨0, by decide⟩⟩

/-- Ids are ordered by their value, which is also the order of their texts. -/
instance : Ranked DatasetId where
  rank := value
  rank_injective {left right} heq := by
    cases left
    cases right
    simp_all

/-- The lower-case hexadecimal digit of a number below sixteen. -/
def hexDigit (digit : Nat) : Char :=
  if digit < 10 then Char.ofNat ('0'.toNat + digit)
  else Char.ofNat ('a'.toNat + (digit - 10))

/-- The last `width` hexadecimal digits of a number. -/
def hexDigits : (width : Nat) → Nat → List Char
  | 0, _ => []
  | width + 1, value => hexDigits width (value / 16) ++ [hexDigit (value % 16)]

/-- Digits per group of the hyphenated form. -/
def groups : List Nat := [8, 4, 4, 4, 12]

/-- Cut a list into groups and join them with hyphens. -/
def hyphenate : List Nat → List Char → List Char
  | [], digits => digits
  | [_], digits => digits
  | width :: widths, digits =>
      digits.take width ++ '-' :: hyphenate widths (digits.drop width)

/-- Take out the hyphens of a list cut into groups; the last group is the rest. -/
def unhyphenate? : List Nat → List Char → Option (List Char)
  | [], text => some text
  | [_], text => some text
  | width :: widths, text =>
      match text.drop width with
      | '-' :: rest => (unhyphenate? widths rest).map (text.take width ++ ·)
      | _ => none

/-- The canonical text of an id. -/
def toChars (id : DatasetId) : List Char :=
  hyphenate groups (hexDigits 32 id.value)

instance : ToString DatasetId := ⟨fun id => String.ofList id.toChars⟩

/-- An id from exactly 32 hexadecimal digits. -/
def ofDigits? (digits : List Char) : Option DatasetId := do
  guard (digits.length = 32)
  let value ← Text.ofDigits? 16 digits
  if hbound : value < limit then some ⟨value, hbound⟩ else none

def ofHyphenated? (text : List Char) : Option DatasetId := do
  ofDigits? (← unhyphenate? groups text)

/-- The characters before a hyphenated id that may mark it, in lower case. -/
def urnMark : List Char := "urn:uuid:".toList

/-- An id from any of its spellings.  The length of the text tells them apart. -/
def ofChars? (text : List Char) : Option DatasetId :=
  if text.length = 32 then ofDigits? text
  else if text.length = 36 then ofHyphenated? text
  else if text.length = 38 then
    if text.head? = some '\x7b' ∧ text.getLast? = some '\x7d' then
      ofHyphenated? (text.drop 1).dropLast
    else none
  else if text.length = 45 then
    if (text.take 9).map Char.toLower = urnMark then ofHyphenated? (text.drop 9)
    else none
  else none

def ofText? (text : String) : Option DatasetId :=
  ofChars? text.toList

end DatasetId

end DatasetLineage
