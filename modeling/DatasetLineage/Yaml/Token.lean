import DatasetLineage.Yaml.Block
import DatasetLineage.Yaml.Scalar

/-!
# Tokens of YAML texts

A text is cut into scalars and marks.  The starts and ends of blocks are tokens too,
which follow from columns: a block starts where an item, a key or its colon stands
deeper than the block around it, and ends before a token that stands less deep.

A key without a mark of its own is known by the colon after it.  So a scalar or a
flow collection is a candidate until its line ends, and the token that marks it as a
key is put in before it when the colon comes.  Anchors, aliases, tags and directives
have no tokens; a text with any of them is refused.
-/

namespace DatasetLineage

namespace Yaml

inductive Token where
  /-- The mark before a document. -/
  | documentStart
  /-- The mark after a document. -/
  | documentEnd
  | listStart
  | mappingStart
  | blockEnd
  /-- The dash before an item of a list. -/
  | item
  /-- What comes next is a key. -/
  | key
  /-- The colon before a value. -/
  | value
  | openList
  | closeList
  | openMapping
  | closeMapping
  | comma
  | scalar (written : Scalar)
deriving DecidableEq, Inhabited

/-- What becomes a key if a colon follows. -/
structure Candidate where
  /-- Number of tokens before it. -/
  place : Nat
  position : Position
  /-- Whether it has to become a key, since it stands where the keys of the innermost
  block stand. -/
  required : Bool
deriving DecidableEq

/-- Longest distance in bytes from a key to its colon. -/
def longestKey : Nat := 1024

namespace Candidate

def isPast (candidate : Candidate) (position : Position) : Bool :=
  candidate.position.line < position.line ||
    candidate.position.index + longestKey < position.index

/-- Give up a candidate; one that is required cannot be. -/
def dismiss? : Option Candidate → Option (Option Candidate)
  | some candidate => if candidate.required then none else some none
  | none => some none

/-- Give up a candidate if a colon at a position comes too late for it. -/
def expire? (position : Position) (candidate : Option Candidate) :
    Option (Option Candidate) :=
  if candidate.any (·.isPast position) then dismiss? candidate else some candidate

end Candidate

/-- How far a text is cut into tokens. -/
structure Progress where
  cursor : Cursor
  /-- Whether an item or a key of a block may start at the place. -/
  fresh : Bool
  /-- The tokens so far, the last one first. -/
  tokens : List Token
  /-- Number of tokens so far. -/
  count : Nat
  /-- The columns of the blocks that are open, the innermost first. -/
  blocks : List Nat
  /-- The candidate inside the innermost flow collection, or in the block. -/
  candidate : Option Candidate
  /-- The candidates around every flow collection that is open. -/
  outer : List (Option Candidate)

namespace Progress

def ofChars (chars : List Char) : Progress :=
  ⟨⟨Position.start, chars⟩, true, [], 0, [], none, []⟩

def inFlow (progress : Progress) : Bool :=
  !progress.outer.isEmpty

/-- Put in a token after the first `place` tokens. -/
def insert (progress : Progress) (place : Nat) (token : Token) : Progress :=
  let later := progress.count - place
  { progress with
    tokens := progress.tokens.take later ++ token :: progress.tokens.drop later
    count := progress.count + 1 }

def push (progress : Progress) (token : Token) : Progress :=
  { progress with tokens := token :: progress.tokens, count := progress.count + 1 }

def emit (progress : Progress) (token : Token) (width : Nat) : Progress :=
  { progress.push token with cursor := progress.cursor.forward width }

/-! ## Blocks -/

/-- Start a block in a column, with a token after the first `place` tokens, unless
it is started already or this is a flow collection. -/
def openBlock (progress : Progress) (column place : Nat) (token : Token) : Progress :=
  if progress.inFlow || progress.blocks.head?.any (column ≤ ·) then progress
  else { progress.insert place token with blocks := column :: progress.blocks }

/-- End the blocks that satisfy a condition, from the innermost on. -/
def closeBlocks (progress : Progress) (ends : Nat → Bool) : Progress :=
  if progress.inFlow then progress
  else
    let closed := progress.blocks.takeWhile ends
    { progress with
      tokens := closed.map (fun _ => .blockEnd) ++ progress.tokens
      count := progress.count + closed.length
      blocks := progress.blocks.dropWhile ends }

/-- Start a block with an item or a key here, unless it is started already. -/
def enterBlock? (progress : Progress) (token : Token) : Option Progress :=
  if progress.inFlow then some progress
  else if progress.fresh then
    some (progress.openBlock progress.cursor.column progress.count token)
  else none

/-! ## Candidates -/

def dismiss? (progress : Progress) : Option Progress := do
  let candidate ← Candidate.dismiss? progress.candidate
  some { progress with candidate }

/-- Give up all candidates for which a colon here comes too late. -/
def expire? (progress : Progress) : Option Progress := do
  let position := progress.cursor.position
  let candidate ← Candidate.expire? position progress.candidate
  let outer ← progress.outer.mapM (Candidate.expire? position)
  some { progress with candidate, outer }

/-- Make what starts here a candidate, if a key may start here. -/
def remember? (progress : Progress) : Option Progress :=
  if progress.fresh then do
    let progress ← progress.dismiss?
    let position := progress.cursor.position
    let required := !progress.inFlow && progress.blocks.head? = some position.column
    some { progress with candidate := some ⟨progress.count, position, required⟩ }
  else some progress

/-! ## Tokens -/

def documentMark? (progress : Progress) (token : Token) : Option Progress := do
  let progress ← (progress.closeBlocks fun _ => true).dismiss?
  some { progress.emit token 3 with fresh := false }

def opening? (progress : Progress) (token : Token) : Option Progress := do
  let progress ← progress.remember?
  let outer := progress.candidate :: progress.outer
  some { progress.emit token 1 with fresh := true, candidate := none, outer }

def closing? (progress : Progress) (token : Token) : Option Progress := do
  let progress ← progress.dismiss?
  let candidate := progress.outer.head?.getD none
  some
    { progress.emit token 1 with fresh := false, candidate, outer := progress.outer.tail }

def comma? (progress : Progress) : Option Progress := do
  let progress ← progress.dismiss?
  some { progress.emit .comma 1 with fresh := true }

def item? (progress : Progress) : Option Progress := do
  let progress ← (← progress.enterBlock? .listStart).dismiss?
  some { progress.emit .item 1 with fresh := true }

def key? (progress : Progress) : Option Progress := do
  let progress ← (← progress.enterBlock? .mappingStart).dismiss?
  some { progress.emit .key 1 with fresh := !progress.inFlow }

def value? (progress : Progress) : Option Progress :=
  match progress.candidate with
  | some candidate =>
      let column := candidate.position.column
      let progress :=
        (progress.insert candidate.place .key).openBlock column candidate.place .mappingStart
      some { progress.emit .value 1 with fresh := false, candidate := none }
  | none => do
      let progress ← progress.enterBlock? .mappingStart
      some { progress.emit .value 1 with fresh := !progress.inFlow }

/-- The scalar that starts here, indented deeper than the innermost block. -/
def scalar? (fuel : Nat) (progress : Progress) : Option Progress := do
  let progress ← progress.remember?
  let least := progress.blocks.head?.elim 0 (· + 1)
  let (written, next, crossed) ← Yaml.scalar? progress.inFlow least fuel progress.cursor
  some { progress.push (.scalar written) with cursor := next, fresh := crossed }

/-- The block scalar that starts here.  What follows it stands on a new line. -/
def blockScalar? (folded : Bool) (fuel : Nat) (progress : Progress) : Option Progress := do
  let progress ← progress.dismiss?
  let least := progress.blocks.head?.elim 0 (· + 1)
  let (text, next) ← Yaml.blockScalar? folded least fuel (progress.cursor.forward 1)
  let written : Scalar := ⟨String.ofList text, false⟩
  some { progress.push (.scalar written) with cursor := next, fresh := true }

def token? (fuel : Nat) (progress : Progress) : Option Progress :=
  if progress.cursor.atMark '-' then progress.documentMark? .documentStart
  else if progress.cursor.atMark '.' then progress.documentMark? .documentEnd
  else
    match progress.cursor.rest with
    | '[' :: _ => progress.opening? .openList
    | '\x7b' :: _ => progress.opening? .openMapping
    | ']' :: _ => progress.closing? .closeList
    | '\x7d' :: _ => progress.closing? .closeMapping
    | ',' :: _ => progress.comma?
    | c :: rest =>
        if c = '-' && startsGap rest then progress.item?
        else if c = '?' && (progress.inFlow || startsGap rest) then progress.key?
        else if c = ':' && (progress.inFlow || startsGap rest) then progress.value?
        else if (c = '|' || c = '>') && !progress.inFlow then
          progress.blockScalar? (c = '>') fuel
        else progress.scalar? fuel
    | [] => none

/-- Pass over gaps and comments, and end the blocks and give up the candidates that
do not reach as far. -/
def skip? (progress : Progress) : Option Progress := do
  let (cursor, fresh) := progress.cursor.skip progress.inFlow progress.fresh
  let progress ← { progress with cursor, fresh }.expire?
  some (progress.closeBlocks (cursor.column < ·))

def finish? : (fuel : Nat) → Progress → Option (List Token)
  | 0, _ => none
  | fuel + 1, progress => do
      let progress ← progress.skip?
      if progress.cursor.rest.isEmpty then
        let progress ← (progress.closeBlocks fun _ => true).dismiss?
        some progress.tokens.reverse
      else finish? fuel (← progress.token? fuel)

end Progress

/-- The tokens of a text.  Every step takes a character at least, so there are no more
steps than characters. -/
def tokens? (chars : List Char) : Option (List Token) :=
  Progress.finish? (chars.length + 1) (Progress.ofChars chars)

end Yaml

end DatasetLineage
