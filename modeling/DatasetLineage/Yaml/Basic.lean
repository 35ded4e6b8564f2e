import DatasetLineage.Yaml.Plain
import DatasetLineage.Yaml.Scalar

/-!
# YAML documents

A document as it is written: scalars with their style, lists, and mappings with
their fields in order, where a key may come twice and may be any node.  As a value,
a plain scalar is what it stands for, keys are texts, and of two fields with one key
the later counts.
-/

namespace DatasetLineage

/-- A node of a document. -/
inductive Yaml where
  | scalar (written : Yaml.Scalar)
  | list (items : List Yaml)
  | mapping (fields : List (Yaml × Yaml))
deriving Inhabited

namespace Yaml

def absent : Yaml := .scalar ⟨"", true⟩

def scalarText? : Yaml → Option String
  | .scalar written => some written.text
  | _ => none

/-- The fields of a mapping whose keys are scalars. -/
def fields? : Yaml → Option (List (String × Yaml))
  | .mapping fields => fields.mapM fun (key, value) => do some (← scalarText? key, value)
  | _ => none

mutual

/-- Number of lists and mappings inside each other, where keys do not count. -/
def depth : Yaml → Nat
  | .scalar _ => 0
  | .list items => depthOfItems items + 1
  | .mapping fields => depthOfFields fields + 1

def depthOfItems : List Yaml → Nat
  | [] => 0
  | item :: rest => max (depth item) (depthOfItems rest)

def depthOfFields : List (Yaml × Yaml) → Nat
  | [] => 0
  | (_, value) :: rest => max (depth value) (depthOfFields rest)

end

/-! ## Values -/

/-- Whether a whole number fits 64 bits, with a sign or without one. -/
def fitsWord (value : Int) : Bool :=
  -(Text.wordLimit / 2 : Nat) ≤ value && value < Text.wordLimit

/-- The value of a scalar, unless it is a whole number that does not fit 64 bits. -/
def Scalar.toJson? (written : Scalar) : Option Json :=
  if written.plain then
    match Plain.ofText written.text with
    | .null | .unbounded => some .null
    | .bool value => some (.bool value)
    | .integer value => if fitsWord value then some (.number (.integer value)) else none
    | .binary value => some (.number (.binary value))
    | .text => some (.text written.text)
  else some (.text written.text)

mutual

/-- The value of a node, however deep it is. -/
def nodeToJson? : Yaml → Option Json
  | .scalar written => written.toJson?
  | .list items => (itemsToJson? items).map .array
  | .mapping fields => (fieldsToJson? [] fields).map .object

def itemsToJson? : List Yaml → Option (List Json)
  | [] => some []
  | item :: rest => do
      let value ← nodeToJson? item
      let others ← itemsToJson? rest
      some (value :: others)

/-- The values of fields, put among those that came before. -/
def fieldsToJson? (before : List (String × Json)) :
    List (Yaml × Yaml) → Option (List (String × Json))
  | [] => some before
  | (key, written) :: rest => do
      let name ← scalarText? key
      let value ← nodeToJson? written
      fieldsToJson? (Json.putField name value before) rest

end

/-- Most lists and mappings inside each other in a value. -/
def mostNesting : Nat := 128

def toJson? (document : Yaml) : Option Json :=
  if document.depth ≤ mostNesting then nodeToJson? document else none

end Yaml

end DatasetLineage
