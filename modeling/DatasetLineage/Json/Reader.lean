import DatasetLineage.Json.Token

/-!
# Reading JSON

A value is put together token by token.  The containers that are part way
through are kept on a stack, the innermost first; a text with more containers
inside each other than permitted is refused.  Of several fields with one name the
last counts.
-/

namespace DatasetLineage

namespace Json

/-- A container part way through. -/
inductive Frame where
  /-- An array with the items so far, in reverse. -/
  | array (items : List Json)
  /-- An object with the fields so far, and the name of the field being read. -/
  | object (fields : List (String × Json)) (name : String)
deriving Inhabited

/-- What has been read, and what has to come next. -/
inductive Reading where
  /-- A value. -/
  | value (frames : List Frame)
  /-- The first item of an array, or its end. -/
  | itemOrEnd (frames : List Frame)
  /-- The first name of an object, or its end. -/
  | nameOrEnd (frames : List Frame)
  /-- The name of a further field. -/
  | name (fields : List (String × Json)) (frames : List Frame)
  /-- The colon after the name of a field. -/
  | colon (fields : List (String × Json)) (name : String) (frames : List Frame)
  /-- What follows a complete value. -/
  | after (value : Json) (frames : List Frame)
deriving Inhabited

namespace Reading

def startValue? (nesting : Nat) (frames : List Frame) : Token → Option Reading
  | .text content => some (.after (.text content) frames)
  | .word content => some (.after content frames)
  | .arrayStart => if frames.length < nesting then some (.itemOrEnd frames) else none
  | .objectStart => if frames.length < nesting then some (.nameOrEnd frames) else none
  | _ => none

def step? (nesting : Nat) (reading : Reading) (token : Token) : Option Reading :=
  match reading, token with
  | .value frames, token => startValue? nesting frames token
  | .itemOrEnd frames, .arrayEnd => some (.after (.array []) frames)
  | .itemOrEnd frames, token => startValue? nesting (.array [] :: frames) token
  | .nameOrEnd frames, .objectEnd => some (.after (.object []) frames)
  | .nameOrEnd frames, .text label => some (.colon [] label frames)
  | .name fields frames, .text label => some (.colon fields label frames)
  | .colon fields label frames, .colon => some (.value (.object fields label :: frames))
  | .after item (.array items :: frames), .comma =>
      some (.value (.array (item :: items) :: frames))
  | .after item (.array items :: frames), .arrayEnd =>
      some (.after (.array (item :: items).reverse) frames)
  | .after content (.object fields label :: frames), .comma =>
      some (.name (putField label content fields) frames)
  | .after content (.object fields label :: frames), .objectEnd =>
      some (.after (.object (putField label content fields)) frames)
  | _, _ => none

def finish? : Reading → Option Json
  | .after content [] => some content
  | _ => none

end Reading

/-- Most containers inside each other in a document. -/
def documentNesting : Nat := 127

/-- Read a value from a text with at most `nesting` containers inside each other. -/
def ofChars? (nesting : Nat) (text : List Char) : Option Json := do
  let tokens ← tokens? text
  let final ← tokens.foldlM (Reading.step? nesting) (.value [])
  final.finish?

def ofText? (text : String) : Option Json :=
  ofChars? documentNesting text.toList

end Json

end DatasetLineage
