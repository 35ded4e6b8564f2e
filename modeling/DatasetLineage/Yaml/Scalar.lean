import DatasetLineage.Text.Digit
import DatasetLineage.Yaml.Cursor

/-!
# Scalars in YAML text

A scalar is written plainly or in quotes.  Inside of it a gap that contains a line
break stands for one blank, or for the breaks after the first one.  A plain scalar
goes on over lines as long as they are indented deeper than the block around it.
The readers take a limit on the number of their steps, each of which takes a
character at least.
-/

namespace DatasetLineage

namespace Yaml

def foldGap (gap : List Char) : List Char :=
  match gap.filter isBreak with
  | [] => gap
  | ['\n'] => [' ']
  | '\n' :: others => others
  | breaks => breaks

/-! ## Quoted scalars -/

/-- The text of a scalar in single quotes up to its end, and the place after it.  A
quote inside is written twice. -/
def singleQuoted? : (fuel : Nat) → Cursor → Option (List Char × Cursor)
  | 0, _ => none
  | fuel + 1, cursor =>
      match cursor.rest with
      | [] => none
      | '\'' :: '\'' :: _ => do
          let (text, final) ← singleQuoted? fuel (cursor.forward 2)
          some ('\'' :: text, final)
      | '\'' :: _ => some ([], cursor.forward 1)
      | c :: _ =>
          if isGap c then do
            let (gap, next) ← cursor.gap?
            let (text, final) ← singleQuoted? fuel next
            some (foldGap gap ++ text, final)
          else do
            let (text, final) ← singleQuoted? fuel (cursor.forward 1)
            some (c :: text, final)

/-- The character that a single character after a backslash stands for. -/
def escaped? : Char → Option Char
  | '0' => some '\x00'
  | 'a' => some '\x07'
  | 'b' => some '\x08'
  | 't' | '\t' => some '\t'
  | 'n' => some '\n'
  | 'v' => some '\x0b'
  | 'f' => some '\x0c'
  | 'r' => some '\r'
  | 'e' => some '\x1b'
  | ' ' => some ' '
  | '"' => some '"'
  | '/' => some '/'
  | '\\' => some '\\'
  | 'N' => some '\u0085'
  | '_' => some '\u00a0'
  | 'L' => some '\u2028'
  | 'P' => some '\u2029'
  | _ => none

/-- How many digits of a code point follow a character after a backslash. -/
def codeLength? : Char → Option Nat
  | 'x' => some 2
  | 'u' => some 4
  | 'U' => some 8
  | _ => none

/-- The character of a code point in hexadecimal digits. -/
def codePoint? (width : Nat) (digits : List Char) : Option Char := do
  guard (digits.length = width)
  let code ← Text.ofDigits? 16 digits
  if code.isValidChar then some (Char.ofNat code) else none

/-- The text of a scalar in double quotes up to its end, and the place after it.
Backslashes escape characters, and the end of a line. -/
def doubleQuoted? : (fuel : Nat) → Cursor → Option (List Char × Cursor)
  | 0, _ => none
  | fuel + 1, cursor =>
      match cursor.rest with
      | [] => none
      | ['\\'] => none
      | '"' :: _ => some ([], cursor.forward 1)
      | '\\' :: c :: rest =>
          if isBreak c then do
            let (gap, next) ← (cursor.forward 1).gap?
            let (text, final) ← doubleQuoted? fuel next
            some ((gap.drop 1).filter isBreak ++ text, final)
          else
            match codeLength? c with
            | some width => do
                let meant ← codePoint? width (rest.take width)
                let (text, final) ← doubleQuoted? fuel (cursor.forward (2 + width))
                some (meant :: text, final)
            | none => do
                let meant ← escaped? c
                let (text, final) ← doubleQuoted? fuel (cursor.forward 2)
                some (meant :: text, final)
      | c :: _ =>
          if isGap c then do
            let (gap, next) ← cursor.gap?
            let (text, final) ← doubleQuoted? fuel next
            some (foldGap gap ++ text, final)
          else do
            let (text, final) ← doubleQuoted? fuel (cursor.forward 1)
            some (c :: text, final)

/-! ## Plain scalars -/

/-- Characters that end a plain scalar inside a flow collection. -/
def isFlowMark (c : Char) : Bool :=
  c ∈ [',', '[', ']', '\x7b', '\x7d']

/-- Characters that cannot start a plain scalar. -/
def isReserved (c : Char) : Bool :=
  c ∈ [',', '[', ']', '\x7b', '\x7d', '#', '&', '*', '!', '|', '>', '\'', '"', '%', '@',
    '\x60']

def startsPlain (inFlow : Bool) : List Char → Bool
  | [] => false
  | c :: rest =>
      if c = '-' then !startsGap rest
      else if c = '?' ∨ c = ':' then !inFlow && !startsGap rest
      else !isGap c && !isReserved c

def stopsPlain (inFlow : Bool) : List Char → Bool
  | [] => true
  | c :: rest => isGap c || (c = ':' && startsGap rest) || (inFlow && isFlowMark c)

/-- Whether a text starts with a colon that cannot be read inside a flow
collection. -/
def badColon (inFlow : Bool) : List Char → Bool
  | ':' :: c :: _ => inFlow && (isFlowMark c || c = '?')
  | _ => false

/-- The characters of a plain scalar up to a gap or its end, and what follows. -/
def plainRun? (inFlow : Bool) : List Char → Option (List Char × List Char)
  | [] => some ([], [])
  | c :: rest =>
      if badColon inFlow (c :: rest) then none
      else if stopsPlain inFlow (c :: rest) then some ([], c :: rest)
      else do
        let (run, after) ← plainRun? inFlow rest
        some (c :: run, after)

/-- Whether a gap indents a line with a tab at a column below `least`. -/
def tabsIndent (least : Nat) : (crossed : Bool) → (column : Nat) → List Char → Bool
  | _, _, [] => false
  | crossed, column, c :: rest =>
      if isBreak c then tabsIndent least true 0 rest
      else (c = '\t' && crossed && column < least) ||
        tabsIndent least crossed (column + 1) rest

def endsPlain (inFlow : Bool) (least : Nat) (cursor : Cursor) : Bool :=
  cursor.atEnd || (!inFlow && cursor.column < least) || cursor.rest.head? = some '#' ||
    stopsPlain inFlow cursor.rest

/-- The text of a plain scalar, the place after it and the gap that follows it, and
whether that gap contains a line break.  Outside of flow collections the lines of
the scalar are indented to column `least` at least. -/
def plain? (inFlow : Bool) (least : Nat) :
    (fuel : Nat) → Cursor → Option (List Char × Cursor × Bool)
  | 0, _ => none
  | fuel + 1, cursor => do
      let (run, rest) ← plainRun? inFlow cursor.rest
      let gap := rest.takeWhile isGap
      guard (!tabsIndent least false 0 gap)
      let next := cursor.forward (run.length + gap.length)
      if gap.isEmpty || endsPlain inFlow least next then
        some (run, next, gap.any isBreak)
      else do
        let (more, final, crossed) ← plain? inFlow least fuel next
        some (run ++ foldGap gap ++ more, final, crossed)

/-! ## Both kinds -/

/-- A scalar: its text, and whether it is written plainly. -/
structure Scalar where
  text : String
  plain : Bool
deriving DecidableEq, Inhabited

/-- Read the scalar at a place.  After a plain scalar the gap that follows it is
passed over too; what is said last is whether that gap contains a line break. -/
def scalar? (inFlow : Bool) (least : Nat) (fuel : Nat) (cursor : Cursor) :
    Option (Scalar × Cursor × Bool) :=
  match cursor.rest with
  | '\'' :: _ => do
      let (text, final) ← singleQuoted? fuel (cursor.forward 1)
      some (⟨String.ofList text, false⟩, final, false)
  | '"' :: _ => do
      let (text, final) ← doubleQuoted? fuel (cursor.forward 1)
      some (⟨String.ofList text, false⟩, final, false)
  | rest =>
      if startsPlain inFlow rest then do
        let (text, final, crossed) ← plain? inFlow least fuel cursor
        some (⟨String.ofList text, true⟩, final, crossed)
      else none

end Yaml

end DatasetLineage
