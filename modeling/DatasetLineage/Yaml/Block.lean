import DatasetLineage.Yaml.Cursor

/-!
# Block scalars

Below a bar or an angle bracket a text stands line by line, all lines in one column.
Below a bar its breaks are kept; below an angle bracket a break between two lines
that start without a blank stands for one blank, or for the empty lines that follow
it.  Digits and signs beside the bar give the indent of the lines, and which breaks
at the end belong to the text: all, none, or the first if nothing is said.
-/

namespace DatasetLineage

namespace Yaml

/-- Which breaks at the end of a block scalar belong to its text. -/
inductive Ending where
  | nothing
  | first
  | everything
deriving DecidableEq

/-- What follows the bar or the angle bracket of a block scalar. -/
structure BlockHeader where
  indent : Option Nat
  ending : Ending

/-- An indicator of the ending, if there is one, and what follows. -/
def readEnding : List Char → Option Ending × List Char
  | '-' :: rest => (some .nothing, rest)
  | '+' :: rest => (some .everything, rest)
  | chars => (none, chars)

/-- A digit for the indent, if there is one, and what follows.  Zero is no indent. -/
def readIndent? : List Char → Option (Option Nat × List Char)
  | '0' :: _ => none
  | c :: rest =>
      some (if c.isDigit then (some (c.toNat - '0'.toNat), rest) else (none, c :: rest))
  | [] => some (none, [])

/-- A header with its indicators in any order, and what follows. -/
def blockHeader? (chars : List Char) : Option (BlockHeader × List Char) := do
  let (early, rest) ← readIndent? chars
  let (ending, rest) := readEnding rest
  let (late, rest) ← if early.isSome then some (none, rest) else readIndent? rest
  some (⟨early.or late, ending.getD .first⟩, rest)

/-- The place after the line of a header.  A comment may end it. -/
def lineAfter? (cursor : Cursor) : Option Cursor :=
  let blanks := cursor.rest.takeWhile isBlank
  let next := cursor.forward blanks.length
  match next.rest with
  | [] => some next
  | c :: _ =>
      let comment := next.rest.takeWhile (!isBreak ·)
      if c = '#' || isBreak c then some (next.forward (comment.length + 1)) else none

/-- Pass over empty lines and the indent of the next line, which is given or else as
deep as there are blanks.  What is found are the breaks, the deepest column and the
place.  A tab must not stand in the indent. -/
def emptyLines? (indent : Option Nat) :
    (fuel : Nat) → Cursor → Option (List Char × Nat × Cursor)
  | 0, _ => none
  | fuel + 1, cursor => do
      let blanks := cursor.rest.takeWhile (· = ' ')
      let next := cursor.forward (indent.elim blanks.length fun column =>
        min blanks.length (column - cursor.column))
      match next.rest with
      | [] => some ([], next.column, next)
      | c :: _ =>
          if c = '\t' && indent.all (next.column < ·) then none
          else if isBreak c then do
            let (breaks, deepest, final) ← emptyLines? indent fuel (next.forward 1)
            some (c :: breaks, max next.column deepest, final)
          else some ([], next.column, next)

/-- What stands in a text for the break before a line and the empty lines after it.
`blank` says whether one of the lines around starts with a blank. -/
def foldBreaks (folded blank : Bool) (before empty : List Char) : List Char :=
  if folded && before = ['\n'] && !blank then (if empty.isEmpty then [' '] else empty)
  else before ++ empty

/-- The lines of a block scalar from a place on.  `before` is the break that ended the
line before, `blank` says whether that line started with a blank, and `empty` are the
breaks of the empty lines since.  What is found is the text, the break and the empty
lines after it, and the place. -/
def blockLines? (folded : Bool) (indent : Nat) :
    (fuel : Nat) → (before : List Char) → (blank : Bool) → (empty : List Char) → Cursor →
      Option (List Char × List Char × List Char × Cursor)
  | 0, _, _, _, _ => none
  | fuel + 1, before, blank, empty, cursor =>
      if cursor.column = indent && !cursor.rest.isEmpty then do
        let starts := cursor.rest.head?.any isBlank
        let line := cursor.rest.takeWhile (!isBreak ·)
        let ended := cursor.forward line.length
        let (others, _, next) ← emptyLines? (some indent) fuel (ended.forward 1)
        let (text, last, after, final) ←
          blockLines? folded indent fuel (ended.rest.take 1) starts others next
        some (foldBreaks folded (blank || starts) before empty ++ line ++ text, last, after, final)
      else some ([], before, empty, cursor)

/-- The text of a block scalar after its bar or angle bracket, and the place after it.
Its lines are indented to column `least` at least.  An indent that is given counts from
the column of the block around, which is one less. -/
def blockScalar? (folded : Bool) (least : Nat) (fuel : Nat) (cursor : Cursor) :
    Option (List Char × Cursor) := do
  let (header, rest) ← blockHeader? cursor.rest
  let start ← lineAfter? (cursor.forward (cursor.rest.length - rest.length))
  let given := header.indent.map (least - 1 + ·)
  let (empty, deepest, next) ← emptyLines? given fuel start
  let indent := given.getD (max deepest (max least 1))
  let (text, last, after, final) ← blockLines? folded indent fuel [] false empty next
  let ending := match header.ending with
    | .nothing => []
    | .first => last
    | .everything => last ++ after
  some (text ++ ending, final)

end Yaml

end DatasetLineage
