import DatasetLineage.Yaml.Scalar
import DatasetLineage.Yaml.Plain

/-!
# Styles of scalars

A text is written plainly if it reads back as itself, and otherwise in the first
style that can hold it: line by line if it has newlines, in single quotes, and
last in double quotes, which can hold everything.
-/

namespace DatasetLineage

namespace Yaml

/-- How the text of a scalar is written. -/
inductive Style where
  | plain
  | singleQuoted
  | doubleQuoted
  /-- Line by line below a bar. -/
  | literal
deriving DecidableEq

def isShown (c : Char) : Bool :=
  let code := c.toNat
  c = '\n' || (0x20 ≤ code && code ≤ 0x7e) ||
    (0xa0 ≤ code && code ≠ 0xfeff && code ≠ 0xfffe && code ≠ 0xffff)

/-- Whether two characters that follow each other satisfy a condition. -/
def anyNeighbours (condition : Char → Char → Bool) : List Char → Bool
  | first :: second :: rest =>
      condition first second || anyNeighbours condition (second :: rest)
  | _ => false

/-- Whether a text starts like something other than a plain scalar. -/
def startsOtherwise (chars : List Char) : Bool :=
  chars.take 3 = ['-', '-', '-'] || chars.take 3 = ['.', '.', '.'] ||
    match chars with
    | [] => false
    | c :: rest => isReserved c || (c ∈ ['?', ':', '-'] && startsGap rest)

/-- Whether a text contains an end of a key or the start of a comment. -/
def hasIndicator (chars : List Char) : Bool :=
  chars.getLast? = some ':' ||
    anyNeighbours (fun first second =>
      (first = ':' && isGap second) || (isGap first && second = '#')) chars

/-- Whether a text can stand without quotes on one line of a block. -/
def fitsPlain (chars : List Char) : Bool :=
  !startsOtherwise chars && !hasIndicator chars && !chars.any isBreak &&
    chars.head? ≠ some ' ' && chars.getLast? ≠ some ' '

/-- Whether a blank stands before a line break, where it would be lost, or a
character cannot be shown. -/
def needsEscapes (chars : List Char) : Bool :=
  !chars.all isShown ||
    anyNeighbours (fun first second => first = ' ' && isBreak second) chars

def indentsLine (chars : List Char) : Bool :=
  anyNeighbours (fun first second => isBreak first && second = ' ') chars

def Style.ofText (text : String) : Style :=
  let chars := text.toList
  if needsEscapes chars then .doubleQuoted
  else if chars.contains '\n' then
    if chars.getLast? = some ' ' then .doubleQuoted else .literal
  else if fitsPlain chars && !Plain.misleads text then .plain
  else if indentsLine chars then .doubleQuoted
  else .singleQuoted

end Yaml

end DatasetLineage
