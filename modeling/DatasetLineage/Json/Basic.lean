import DatasetLineage.Decimal.Shortest

/-!
# JSON values

A value of a document.  Whole numbers of up to 64 bits are kept as they are, all
other numbers as binary numbers.  The fields of an object are kept in the order
in which they are written; an object that was read has its fields in ascending
order of their names, each name once.
-/

namespace DatasetLineage

/-- A number of a document. -/
inductive Number where
  | integer (value : Int)
  | binary (value : Binary64)
deriving DecidableEq, Inhabited

/-- A value of a document. -/
inductive Json where
  | null
  | bool (value : Bool)
  | number (value : Number)
  | text (value : String)
  | array (items : List Json)
  | object (fields : List (String × Json))
deriving Inhabited

namespace Json

def fields? : Json → Option (List (String × Json))
  | .object fields => some fields
  | _ => none

def items? : Json → Option (List Json)
  | .array items => some items
  | _ => none

def text? : Json → Option String
  | .text value => some value
  | _ => none

def field? (name : String) : Json → Option Json
  | .object fields => fields.lookup name
  | _ => none

def ofNat (value : Nat) : Json :=
  .number (.integer value)

/-- Put a field at its place among fields in ascending order of their names,
replacing a field with the same name. -/
def putField (name : String) (value : Json) :
    List (String × Json) → List (String × Json)
  | [] => [(name, value)]
  | (other, old) :: rest =>
      if name < other then (name, value) :: (other, old) :: rest
      else if name = other then (name, value) :: rest
      else (other, old) :: putField name value rest

end Json

end DatasetLineage
