import DatasetLineage.Json.Basic
import DatasetLineage.Text.Digit

/-!
# Plain scalars

A scalar without quotes stands for null, a truth value or a number if it is
written like one, and for its own text otherwise.  Digits with a needless leading
zero are text, so that a name made of digits is not taken for a number.
-/

namespace DatasetLineage

namespace Yaml

/-- What a plain scalar stands for. -/
inductive Plain where
  | null
  | bool (value : Bool)
  /-- A whole number of up to 128 bits. -/
  | integer (value : Int)
  | binary (value : Binary64)
  /-- An infinity, or the mark of an undefined number. -/
  | unbounded
  | text
deriving DecidableEq, Inhabited

namespace Plain

def isNull (word : String) : Bool :=
  word ∈ ["", "~", "null", "Null", "NULL"]

def bool? (word : String) : Option Bool :=
  if word ∈ ["true", "True", "TRUE"] then some true
  else if word ∈ ["false", "False", "FALSE"] then some false
  else none

/-- Take off a sign, and say whether it is a minus. -/
def unsigned : List Char → Bool × List Char
  | '-' :: rest => (true, rest)
  | '+' :: rest => (false, rest)
  | chars => (false, chars)

/-- Whether a text consists of two or more digits of which the first is zero. -/
def isZeroRun (chars : List Char) : Bool :=
  match (unsigned chars).2 with
  | '0' :: second :: rest => (second :: rest).all Char.isDigit
  | _ => false

/-- The number that digits stand for; there has to be one digit at least. -/
def digits? (base : Nat) (chars : List Char) : Option Nat :=
  if chars.isEmpty then none else Text.ofDigits? base chars

/-- A whole number without its sign, in base ten or in a base that is marked. -/
def magnitude? : List Char → Option Nat
  | '0' :: 'x' :: rest => digits? 16 rest
  | '0' :: 'o' :: rest => digits? 8 rest
  | '0' :: 'b' :: rest => digits? 2 rest
  | chars => digits? 10 chars

/-- The first number that 128 bits do not hold. -/
def longLimit : Nat :=
  Text.wordLimit * Text.wordLimit

def integer? (chars : List Char) : Option Int := do
  let (negative, rest) := unsigned chars
  let magnitude ← magnitude? rest
  if negative then
    if magnitude ≤ longLimit / 2 then some (-(magnitude : Int)) else none
  else if magnitude < longLimit then some magnitude
  else none

def exponent? (chars : List Char) : Option Int := do
  let (negative, rest) := unsigned chars
  let magnitude ← digits? 10 rest
  some (if negative then -(magnitude : Int) else magnitude)

/-- The finite number nearest to a decimal fraction with an optional exponent. -/
def binary? (chars : List Char) : Option Binary64 := do
  let (negative, rest) := unsigned chars
  let (whole, rest) := rest.span Char.isDigit
  let (fraction, rest) := match rest with
    | '.' :: rest => rest.span Char.isDigit
    | rest => ([], rest)
  let digits ← digits? 10 (whole ++ fraction)
  let exponent ← match rest with
    | [] => some 0
    | mark :: rest => if mark = 'e' ∨ mark = 'E' then exponent? rest else none
  Binary64.ofDecimal? negative digits (exponent - fraction.length)

def isUnbounded (word : String) : Bool :=
  word ∈ [".inf", ".Inf", ".INF", "+.inf", "+.Inf", "+.INF", "-.inf", "-.Inf", "-.INF",
    ".nan", ".NaN", ".NAN"]

def ofText (word : String) : Plain :=
  let chars := word.toList
  if isNull word then .null
  else
    match bool? word with
    | some value => .bool value
    | none =>
        if isZeroRun chars then .text
        else
          match integer? chars with
          | some value => .integer value
          | none =>
              if isUnbounded word then .unbounded
              else
                match binary? chars with
                | some value => .binary value
                | none => .text

/-- Whether a text would be taken for something else if it stood without quotes. -/
def misleads (word : String) : Bool :=
  ofText word ≠ .text || isZeroRun word.toList

end Plain

end Yaml

end DatasetLineage
