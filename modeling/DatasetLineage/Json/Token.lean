import DatasetLineage.Json.Number
import DatasetLineage.Text.Digit

/-!
# Tokens of JSON text

A text is cut into tokens character by character.  What has been read of a
token is the mode the scan is in; a word ends at the first character that cannot
belong to it, and is then read as a number or as one of the three names.
-/

namespace DatasetLineage

namespace Json

/-- A token of JSON text. -/
inductive Token where
  | arrayStart
  | arrayEnd
  | objectStart
  | objectEnd
  | comma
  | colon
  | text (value : String)
  /-- A number, a truth value or null. -/
  | word (value : Json)
deriving Inhabited

/-- What has been read of the current token.  The characters of strings and words
are kept in reverse. -/
inductive Mode where
  | between
  | inText (read : List Char)
  | afterBackslash (read : List Char)
  /-- Digits of an escaped code unit; `high` is the first half of a pair. -/
  | inUnit (read : List Char) (high : Option Nat) (missing unit : Nat)
  | afterHigh (read : List Char) (high : Nat)
  | afterHighBackslash (read : List Char) (high : Nat)
  | inWord (read : List Char)
deriving Inhabited

def ofWord? (word : List Char) : Option Json :=
  if word = "null".toList then some .null
  else if word = "true".toList then some (.bool true)
  else if word = "false".toList then some (.bool false)
  else do
    let numeral ← Numeral.ofChars? word
    (numeral.toNumber?).map .number

def isWordChar (c : Char) : Bool :=
  c.isAlphanum || c = '-' || c = '+' || c = '.'

/-- The tokens that a character between tokens stands for, and the mode after it. -/
def startToken? (c : Char) : Option (List Token × Mode) :=
  match c with
  | ' ' | '\t' | '\n' | '\r' => some ([], .between)
  | '[' => some ([.arrayStart], .between)
  | ']' => some ([.arrayEnd], .between)
  | '\x7b' => some ([.objectStart], .between)
  | '\x7d' => some ([.objectEnd], .between)
  | ',' => some ([.comma], .between)
  | ':' => some ([.colon], .between)
  | '"' => some ([], .inText [])
  | c => if isWordChar c then some ([], .inWord [c]) else none

/-- The character that a single letter after a backslash stands for. -/
def escaped? : Char → Option Char
  | '"' => some '"'
  | '\\' => some '\\'
  | '/' => some '/'
  | 'b' => some '\x08'
  | 'f' => some '\x0c'
  | 'n' => some '\n'
  | 'r' => some '\r'
  | 't' => some '\t'
  | _ => none

def isHighUnit (unit : Nat) : Bool :=
  0xd800 ≤ unit && unit ≤ 0xdbff

def isLowUnit (unit : Nat) : Bool :=
  0xdc00 ≤ unit && unit ≤ 0xdfff

/-- The mode after an escaped code unit.  A pair of units stands for one
character, and half a pair for none. -/
def endUnit? (read : List Char) (high : Option Nat) (unit : Nat) : Option Mode :=
  match high with
  | none =>
      if isHighUnit unit then some (.afterHigh read unit)
      else if isLowUnit unit then none
      else some (.inText (Char.ofNat unit :: read))
  | some high =>
      if isLowUnit unit then
        let code := 0x10000 + (high - 0xd800) * 0x400 + (unit - 0xdc00)
        some (.inText (Char.ofNat code :: read))
      else none

namespace Mode

/-- Read one more character: the tokens it completes and the mode after it. -/
def step? (mode : Mode) (c : Char) : Option (List Token × Mode) :=
  match mode with
  | .between => startToken? c
  | .inText read =>
      if c = '"' then some ([.text (String.ofList read.reverse)], .between)
      else if c = '\\' then some ([], .afterBackslash read)
      else if c.toNat < 0x20 then none
      else some ([], .inText (c :: read))
  | .afterBackslash read =>
      if c = 'u' then some ([], .inUnit read none 4 0)
      else (escaped? c).map fun meant => ([], .inText (meant :: read))
  | .inUnit read high missing unit => do
      let unit := unit * 16 + (← Text.hexValue? c)
      if missing = 1 then (endUnit? read high unit).map fun next => ([], next)
      else some ([], .inUnit read high (missing - 1) unit)
  | .afterHigh read high => if c = '\\' then some ([], .afterHighBackslash read high) else none
  | .afterHighBackslash read high =>
      if c = 'u' then some ([], .inUnit read (some high) 4 0) else none
  | .inWord read =>
      if isWordChar c then some ([], .inWord (c :: read))
      else do
        let value ← ofWord? read.reverse
        let (tokens, next) ← startToken? c
        some (.word value :: tokens, next)

def finish? : Mode → Option (List Token)
  | .between => some []
  | .inWord read => (ofWord? read.reverse).map fun value => [.word value]
  | _ => none

end Mode

/-- The tokens of a text; `done` holds those already found, in reverse. -/
def tokensFrom? (mode : Mode) (done : List Token) : List Char → Option (List Token)
  | [] => mode.finish?.map fun tokens => done.reverse ++ tokens
  | c :: rest =>
      match mode.step? c with
      | some (tokens, next) => tokensFrom? next (tokens.reverse ++ done) rest
      | none => none

def tokens? (text : List Char) : Option (List Token) :=
  tokensFrom? .between [] text

end Json

end DatasetLineage
