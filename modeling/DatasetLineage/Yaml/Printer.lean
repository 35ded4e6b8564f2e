import DatasetLineage.Yaml.Style

/-!
# YAML text

Values are written in block style with an indent of two blanks.  The items of a
list stand below the key of the list, in its column.  An empty list or mapping is
written in flow style.
-/

namespace DatasetLineage

namespace Yaml

/-- Numbers that are not whole are written positionally from 0.00001 on and below
ten to the power of 16. -/
def floatNotation : FloatNotation where
  mostWholeDigits := 16
  leastZeros := 5
  plusSign := false

/-- The last `width` hexadecimal digits of a number, in upper case. -/
def upperHex (width : Nat) (value : Nat) : List Char :=
  (List.range width).reverse.map fun place =>
    (Nat.digitChar (value / Nat.pow 16 place % 16)).toUpper

def escapeChar (c : Char) : List Char :=
  match c with
  | '\x00' => ['\\', '0']
  | '\x07' => ['\\', 'a']
  | '\x08' => ['\\', 'b']
  | '\t' => ['\\', 't']
  | '\n' => ['\\', 'n']
  | '\x0b' => ['\\', 'v']
  | '\x0c' => ['\\', 'f']
  | '\r' => ['\\', 'r']
  | '\x1b' => ['\\', 'e']
  | '"' => ['\\', '"']
  | '\\' => ['\\', '\\']
  | '\u0085' => ['\\', 'N']
  | '\u2028' => ['\\', 'L']
  | '\u2029' => ['\\', 'P']
  | c =>
      if isShown c then [c]
      else if c.toNat ≤ 0xff then '\\' :: 'x' :: upperHex 2 c.toNat
      else if c.toNat ≤ 0xffff then '\\' :: 'u' :: upperHex 4 c.toNat
      else '\\' :: 'U' :: upperHex 8 c.toNat

def blanks (count : Nat) : List Char :=
  List.replicate count ' '

/-- Start every line of a text that is not empty in a column; `atStart` says
whether a line starts here. -/
def indentLines (column : Nat) (atStart : Bool) : List Char → List Char
  | [] => []
  | c :: rest =>
      if isBreak c then c :: indentLines column true rest
      else if atStart then blanks column ++ c :: indentLines column false rest
      else c :: indentLines column false rest

/-- What is written after the bar of a text that is written line by line: the
indent if the first line does not show it, and how many line breaks end the text,
where one is not mentioned. -/
def literalHints (chars : List Char) : List Char :=
  let indent :=
    match chars with
    | c :: _ => if c = ' ' || isBreak c then ['2'] else []
    | [] => []
  let ending :=
    match chars.reverse with
    | [] => ['-']
    | [last] => if isBreak last then ['+'] else ['-']
    | last :: before :: _ =>
        if !isBreak last then ['-'] else if isBreak before then ['+'] else []
  indent ++ ending

/-- The lines of a scalar whose further lines start in a column; so does a quote that
closes the scalar on a line of its own. -/
def textChars (column : Nat) (text : String) : List Char :=
  let chars := text.toList
  match Style.ofText text with
  | .plain => chars ++ ['\n']
  | .singleQuoted =>
      let doubled := chars.flatMap fun c => if c = '\'' then ['\'', '\''] else [c]
      let indent := if chars.getLast?.any isBreak then blanks column else []
      '\'' :: indentLines column false doubled ++ indent ++ ['\'', '\n']
  | .doubleQuoted => '"' :: chars.flatMap escapeChar ++ ['"', '\n']
  | .literal =>
      let ended := if chars.getLast?.any isBreak then chars else chars ++ ['\n']
      '|' :: literalHints chars ++ '\n' :: indentLines column true ended

def numberText : Number → String
  | .integer value => toString value
  | .binary value => floatNotation.text value

/-- Whether a name can be written before its colon: it is short, and has no line
break of any kind. -/
def isSimpleKey (name : String) : Bool :=
  !name.toList.any (fun c => isBreak c || c = '\r' || c = '\u0085') &&
    name.utf8ByteSize ≤ 128

/-- A key with its colon.  Keys that are long or go over several lines are marked. -/
def keyChars (column : Nat) (name : String) : List Char :=
  if isSimpleKey name then (textChars (column + 2) name).dropLast ++ [':']
  else '?' :: ' ' :: textChars (column + 2) name ++ blanks column ++ [':']

/-- The lines of a value that is no list or mapping with contents.  The further
lines of a text start in a column. -/
def scalarChars (column : Nat) : Json → List Char
  | .null => "null\n".toList
  | .bool true => "true\n".toList
  | .bool false => "false\n".toList
  | .number value => (numberText value).toList ++ ['\n']
  | .text value => textChars column value
  | .array _ => "[]\n".toList
  | .object _ => "\x7b\x7d\n".toList

mutual

/-- The lines of a value in a column, the first without its indent. -/
def valueChars (column : Nat) : Json → List Char
  | .array (item :: rest) => (itemsChars column (item :: rest)).drop column
  | .object (field :: rest) => (fieldsChars column (field :: rest)).drop column
  | value => scalarChars column value

/-- What follows the colon of a key in a column. -/
def belowKey (column : Nat) (simple : Bool) : Json → List Char
  | .array (item :: rest) =>
      if simple then '\n' :: itemsChars column (item :: rest)
      else ' ' :: (itemsChars (column + 2) (item :: rest)).drop (column + 2)
  | .object (field :: rest) =>
      if simple then '\n' :: fieldsChars (column + 2) (field :: rest)
      else ' ' :: (fieldsChars (column + 2) (field :: rest)).drop (column + 2)
  | value => ' ' :: scalarChars (column + 2) value

def itemsChars (column : Nat) : List Json → List Char
  | [] => []
  | item :: rest => blanks column ++ '-' :: ' ' :: valueChars (column + 2) item ++
      itemsChars column rest

def fieldsChars (column : Nat) : List (String × Json) → List Char
  | [] => []
  | (name, value) :: rest => blanks column ++ keyChars column name ++
      belowKey column (isSimpleKey name) value ++ fieldsChars column rest

end

def render (value : Json) : String :=
  String.ofList <|
    match value with
    | .text content => textChars 2 content
    | value => valueChars 0 value

end Yaml

end DatasetLineage
