/-!
# Places in a YAML text

Where a token stands decides what it means: its column, and whether an item or a
key of a block may start there.  Line breaks of every kind are read as newlines,
except the line and paragraph separators, which are also breaks but stay what
they are.
-/

namespace DatasetLineage

namespace Yaml

def isBlank (c : Char) : Bool :=
  c = ' ' || c = '\t'

def isBreak (c : Char) : Bool :=
  c = '\n' || c = '\u2028' || c = '\u2029'

def isGap (c : Char) : Bool :=
  isBlank c || isBreak c

/-- Whether a text starts with a gap or is at its end. -/
def startsGap : List Char → Bool
  | [] => true
  | c :: _ => isGap c

/-- Read every kind of line break as a newline. -/
def unifyBreaks : List Char → List Char
  | [] => []
  | '\r' :: '\n' :: rest => '\n' :: unifyBreaks rest
  | c :: rest => (if c = '\r' ∨ c = '\u0085' then '\n' else c) :: unifyBreaks rest

/-- Whether a character may stand in a document. -/
def isPermitted (c : Char) : Bool :=
  let code := c.toNat
  c = '\t' || c = '\n' || c = '\r' || c = '\u0085' || (0x20 ≤ code && code ≤ 0x7e) ||
    (0xa0 ≤ code && code ≤ 0xfffd) || 0x10000 ≤ code

/-- How far a place is from the start of the text and of its line. -/
structure Position where
  /-- Number of bytes before the place. -/
  index : Nat
  line : Nat
  column : Nat
deriving DecidableEq, Inhabited

namespace Position

def start : Position := ⟨0, 0, 0⟩

def after (position : Position) (c : Char) : Position :=
  if isBreak c then ⟨position.index + c.utf8Size, position.line + 1, 0⟩
  else ⟨position.index + c.utf8Size, position.line, position.column + 1⟩

end Position

/-- A place in a text, and the text from there on. -/
structure Cursor where
  position : Position
  rest : List Char
deriving Inhabited

namespace Cursor

def column (cursor : Cursor) : Nat :=
  cursor.position.column

def forward (cursor : Cursor) : (count : Nat) → Cursor
  | 0 => cursor
  | count + 1 =>
      match cursor.rest with
      | [] => cursor
      | c :: rest => forward ⟨cursor.position.after c, rest⟩ count

/-- Whether a mark of three characters that sets documents apart stands here. -/
def atMark (cursor : Cursor) (c : Char) : Bool :=
  cursor.column = 0 && cursor.rest.take 3 = [c, c, c] && startsGap (cursor.rest.drop 3)

def atEnd (cursor : Cursor) : Bool :=
  cursor.rest.isEmpty || cursor.atMark '-' || cursor.atMark '.'

/-- The gap at a place, and the place after it, unless the document ends there. -/
def gap? (cursor : Cursor) : Option (List Char × Cursor) :=
  let gap := cursor.rest.takeWhile isGap
  let next := cursor.forward gap.length
  if next.atEnd then none else some (gap, next)

/-- Pass over gaps and comments.  `hidden` says whether this is inside a comment, and
`fresh` whether an item or a key of a block may start here; outside of flow
collections it may on every new line.  A tab is no gap where one may start.  A mark
of the byte order is passed over at the start of the text. -/
def skipFrom (inFlow hidden fresh : Bool) (position : Position) :
    List Char → Cursor × Bool
  | [] => (⟨position, []⟩, fresh)
  | c :: rest =>
      if isBreak c then skipFrom inFlow false (fresh || !inFlow) (position.after c) rest
      else if hidden || c = ' ' || (c = '\t' && (inFlow || !fresh)) ||
          (c = '\ufeff' && position.index = 0) then
        skipFrom inFlow hidden fresh (position.after c) rest
      else if c = '#' then skipFrom inFlow true fresh (position.after c) rest
      else (⟨position, c :: rest⟩, fresh)

/-- Pass over gaps and comments to the next token, and say whether an item or a key
of a block may start there. -/
def skip (cursor : Cursor) (inFlow fresh : Bool) : Cursor × Bool :=
  skipFrom inFlow false fresh cursor.position cursor.rest

end Cursor

end Yaml

end DatasetLineage
