import DatasetLineage.Json.Basic

/-!
# JSON text

Values are written on one line without blanks, or on several lines with an
indent of two blanks per level.  Strings escape the quote, the backslash and the
control characters below the blank, and nothing else.
-/

namespace DatasetLineage

namespace Json

/-- Numbers that are not whole are written positionally from 0.00001 on and below
ten to the power of 16. -/
def floatNotation : FloatNotation where
  mostWholeDigits := 16
  leastZeros := 5
  plusSign := true

def numberText : Number → String
  | .integer value => toString value
  | .binary value => floatNotation.text value

def escapeChar (c : Char) : List Char :=
  match c with
  | '"' => ['\\', '"']
  | '\\' => ['\\', '\\']
  | '\n' => ['\\', 'n']
  | '\r' => ['\\', 'r']
  | '\t' => ['\\', 't']
  | '\x08' => ['\\', 'b']
  | '\x0c' => ['\\', 'f']
  | c =>
      if c.toNat < 0x20 then
        ['\\', 'u', '0', '0', Nat.digitChar (c.toNat / 16), Nat.digitChar (c.toNat % 16)]
      else [c]

/-- The text of a string, with its quotes. -/
def stringChars (text : String) : List Char :=
  '"' :: text.toList.flatMap escapeChar ++ ['"']

mutual

def compactChars : Json → List Char
  | .null => "null".toList
  | .bool true => "true".toList
  | .bool false => "false".toList
  | .number value => (numberText value).toList
  | .text value => stringChars value
  | .array items => '[' :: compactItems items ++ [']']
  | .object fields => '\x7b' :: compactFields fields ++ ['\x7d']

def compactItems : List Json → List Char
  | [] => []
  | [item] => compactChars item
  | item :: rest => compactChars item ++ ',' :: compactItems rest

def compactFields : List (String × Json) → List Char
  | [] => []
  | [(name, value)] => stringChars name ++ ':' :: compactChars value
  | (name, value) :: rest =>
      stringChars name ++ ':' :: compactChars value ++ ',' :: compactFields rest

end

def lineStart (level : Nat) : List Char :=
  '\n' :: List.replicate (2 * level) ' '

mutual

/-- The text of a value on several lines, nested in `level` others. -/
def prettyChars (level : Nat) : Json → List Char
  | .null => "null".toList
  | .bool true => "true".toList
  | .bool false => "false".toList
  | .number value => (numberText value).toList
  | .text value => stringChars value
  | .array [] => "[]".toList
  | .array items => '[' :: prettyItems (level + 1) items ++ lineStart level ++ [']']
  | .object [] => "\x7b\x7d".toList
  | .object fields =>
      '\x7b' :: prettyFields (level + 1) fields ++ lineStart level ++ ['\x7d']

def prettyItems (level : Nat) : List Json → List Char
  | [] => []
  | [item] => lineStart level ++ prettyChars level item
  | item :: rest => lineStart level ++ prettyChars level item ++ ',' :: prettyItems level rest

def prettyFields (level : Nat) : List (String × Json) → List Char
  | [] => []
  | [(name, value)] =>
      lineStart level ++ stringChars name ++ ':' :: ' ' :: prettyChars level value
  | (name, value) :: rest =>
      lineStart level ++ stringChars name ++ ':' :: ' ' :: prettyChars level value ++
        ',' :: prettyFields level rest

end

def compact (value : Json) : String :=
  String.ofList value.compactChars

def pretty (value : Json) : String :=
  String.ofList (value.prettyChars 0)

end Json

end DatasetLineage
