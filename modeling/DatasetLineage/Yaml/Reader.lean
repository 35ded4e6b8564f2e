import DatasetLineage.Yaml.Basic
import DatasetLineage.Yaml.Token

/-!
# Reading YAML

A document is read from its tokens.  What is not written, such as a value with
nothing after its colon, is an empty plain scalar.  The readers take a limit on the
number of their steps inside each other, which the number of tokens sets high
enough.
-/

namespace DatasetLineage

namespace Yaml

/-- Where a node stands. -/
inductive Surroundings where
  | flow
  | block
  /-- After the mark of a key or of a value in a block.  A list may stand in the
  column of the key there, so that its start and its end have no tokens. -/
  | field
deriving DecidableEq

/-- Pass over a comma, unless nothing came before. -/
def comma? (first : Bool) : List Token → Option (List Token)
  | .comma :: rest => if first then none else some rest
  | tokens => if first then some tokens else none

def startsWith (expected : List Token) (tokens : List Token) : Bool :=
  tokens.head?.any (· ∈ expected)

mutual

/-- Read a node, and the tokens after it. -/
def node? (surroundings : Surroundings) :
    (fuel : Nat) → List Token → Option (Yaml × List Token)
  | 0, _ => none
  | fuel + 1, tokens =>
      match tokens with
      | .scalar written :: rest => some (.scalar written, rest)
      | .openList :: rest => do
          let (items, final) ← flowItems? true fuel rest
          some (.list items, final)
      | .openMapping :: rest => do
          let (fields, final) ← flowFields? true fuel rest
          some (.mapping fields, final)
      | .listStart :: rest =>
          if surroundings = .flow then none
          else do
            let (items, final) ← blockItems? false fuel rest
            some (.list items, final)
      | .mappingStart :: rest =>
          if surroundings = .flow then none
          else do
            let (fields, final) ← blockFields? fuel rest
            some (.mapping fields, final)
      | .item :: _ =>
          if surroundings = .field then do
            let (items, final) ← blockItems? true fuel tokens
            some (.list items, final)
          else none
      | _ => none

/-- Read a node unless one of the tokens comes that show that there is none. -/
def nodeUnless? (surroundings : Surroundings) (stops : List Token) :
    (fuel : Nat) → List Token → Option (Yaml × List Token)
  | 0, _ => none
  | fuel + 1, tokens =>
      if startsWith stops tokens then some (absent, tokens)
      else node? surroundings fuel tokens

/-- Read what follows a key: a value if there is a colon. -/
def colonValue? (surroundings : Surroundings) (stops : List Token) :
    (fuel : Nat) → List Token → Option (Yaml × List Token)
  | 0, _ => none
  | fuel + 1, tokens =>
      match tokens with
      | .value :: rest => nodeUnless? surroundings stops fuel rest
      | tokens => some (absent, tokens)

/-- Read the items of a list up to its bracket.  A key makes an item that is a mapping
with one field.  If the key is marked but not written, the token after its mark is
passed over, be it the colon, a comma or the bracket. -/
def flowItems? (first : Bool) : (fuel : Nat) → List Token → Option (List Yaml × List Token)
  | 0, _ => none
  | fuel + 1, tokens =>
      if startsWith [.closeList] tokens then some ([], tokens.tail)
      else do
        match ← comma? first tokens with
        | .closeList :: rest => some ([], rest)
        | .key :: rest =>
            let (key, next) ←
              if startsWith [.value, .comma, .closeList] rest then some (absent, rest.tail)
              else node? .flow fuel rest
            let (value, next) ← colonValue? .flow [.comma, .closeList] fuel next
            let (items, final) ← flowItems? false fuel next
            some (.mapping [(key, value)] :: items, final)
        | tokens =>
            let (item, next) ← node? .flow fuel tokens
            let (items, final) ← flowItems? false fuel next
            some (item :: items, final)

/-- Read the fields of a mapping up to its brace.  A node that is no key is one
without a value. -/
def flowFields? (first : Bool) :
    (fuel : Nat) → List Token → Option (List (Yaml × Yaml) × List Token)
  | 0, _ => none
  | fuel + 1, tokens =>
      if startsWith [.closeMapping] tokens then some ([], tokens.tail)
      else do
        match ← comma? first tokens with
        | .closeMapping :: rest => some ([], rest)
        | .key :: rest =>
            let (key, next) ← nodeUnless? .flow [.value, .comma, .closeMapping] fuel rest
            let (value, next) ← colonValue? .flow [.comma, .closeMapping] fuel next
            let (fields, final) ← flowFields? false fuel next
            some ((key, value) :: fields, final)
        | tokens =>
            let (key, next) ← node? .flow fuel tokens
            let (fields, final) ← flowFields? false fuel next
            some ((key, absent) :: fields, final)

/-- Read the items of a list up to its end.  A list that is `aligned` with the key of
a field ends before any token that is no item. -/
def blockItems? (aligned : Bool) :
    (fuel : Nat) → List Token → Option (List Yaml × List Token)
  | 0, _ => none
  | fuel + 1, tokens =>
      match tokens with
      | .item :: rest => do
          let (item, next) ← nodeUnless? .block [.item, .key, .value, .blockEnd] fuel rest
          let (items, final) ← blockItems? aligned fuel next
          some (item :: items, final)
      | tokens =>
          if aligned then some ([], tokens)
          else if startsWith [.blockEnd] tokens then some ([], tokens.tail)
          else none

/-- Read the fields of a mapping up to its end.  Every field starts with a key. -/
def blockFields? : (fuel : Nat) → List Token → Option (List (Yaml × Yaml) × List Token)
  | 0, _ => none
  | fuel + 1, tokens =>
      match tokens with
      | .blockEnd :: rest => some ([], rest)
      | .key :: rest => do
          let stops := [.key, .value, .blockEnd]
          let (key, next) ← nodeUnless? .field stops fuel rest
          let (value, next) ← colonValue? .field stops fuel next
          let (fields, final) ← blockFields? fuel next
          some ((key, value) :: fields, final)
      | _ => none

end

/-! ## Documents -/

/-- Read the only document among tokens.  Marks may follow it that end it. -/
def ofTokens? (tokens : List Token) : Option Yaml := do
  let fuel := 4 * (tokens.length + 1)
  let (document, rest) ← match tokens with
    | [] => some (absent, [])
    | [.documentStart] => some (absent, [])
    | .documentStart :: rest =>
        nodeUnless? .block [.documentStart, .documentEnd] fuel rest
    | tokens => node? .block fuel tokens
  if rest.all (· = .documentEnd) then some document else none

def ofText? (text : String) : Option Yaml := do
  let chars := text.toList
  guard (chars.all isPermitted)
  ofTokens? (← tokens? (unifyBreaks chars))

end Yaml

end DatasetLineage
