import DatasetLineage.Direction
import DatasetLineage.Text.Quoted

/-!
# Contradictions in lineage

Every way in which lineage can contradict itself: a dataset derived from itself,
two classifiers for one edge, two homes for one dataset, a tree that mixes
directions, two different descriptions of one edge's subtree, and a document
that does not describe a tree at all.
-/

namespace DatasetLineage

/-- What is wrong with a document that should describe a tree. -/
inductive DocumentFault where
  | directionNotText (found : String)
  | unknownDirection (found : String)
  | nodeNotObject (found : String)
  | missingId
  | invalidId (found : String)
  | homeNotText (id : DatasetId) (found : String)
  | bothDirections (id : DatasetId)
  | childrenNotList (id : DatasetId) (classifier : String)
  | childrenNotObject (id : DatasetId) (found : String)
  | directionMismatch (declared carried : Direction)
  | sourcesNotIds (classifier found : String)
  | sourcesNotObject (found : String)
deriving DecidableEq

/-- How lineage contradicts itself. -/
inductive LineageError where
  /-- A tree refers back to one of its own nodes. -/
  | cyclicTree (root : DatasetId)
  /-- A path leads from a dataset back to itself. -/
  | cyclicGraph (id : DatasetId)
  | inconsistentClassifier (edge : Edge) (existing offered : String)
  | inconsistentHome (id : DatasetId) (existing offered : String)
  | mixedDirection (child : DatasetId) (expected found : Direction)
  /-- One edge came with two different detailed subtrees. -/
  | duplicateDetail (edge : Edge)
  | malformedDocument (fault : DocumentFault)
deriving DecidableEq

/-- A direction name that is not one, after lower-casing. -/
def unknownDirectionMessage (found : String) : String :=
  s!"unknown lineage direction '{found}'"

namespace DocumentFault

def message : DocumentFault → String
  | .directionNotText found => s!"direction must be a string, got {found}"
  | .unknownDirection found => unknownDirectionMessage found
  | .nodeNotObject found => s!"lineage node must be an object, got {found}"
  | .missingId => "lineage node is missing a string dataset_id"
  | .invalidId found => s!"'{found}' is not a valid dataset id"
  | .homeNotText id found => s!"home of {id} must be a string, got {found}"
  | .bothDirections id => s!"node {id} has both sources and derived children"
  | .childrenNotList id classifier =>
      s!"children of {id} under '{classifier}' must be a list"
  | .childrenNotObject id found => s!"children of {id} must be an object, got {found}"
  | .directionMismatch declared carried =>
      s!"root declares direction {declared} but carries {carried} children"
  | .sourcesNotIds classifier found =>
      s!"source datasets under '{classifier}' must be a list of ids, got {found}"
  | .sourcesNotObject found => s!"source_datasets must be an object, got {found}"

end DocumentFault

namespace LineageError

def message : LineageError → String
  | .cyclicTree root =>
      s!"LineageTrees must be acyclic: tree rooted at {root} contains itself"
  | .cyclicGraph id => s!"LineageTrees must be acyclic: {id} is reachable from itself"
  | .inconsistentClassifier edge existing offered =>
      s!"dataset {edge.derived} depends on {edge.source} with inconsistent classifiers " ++
        "(" ++ Text.quote existing ++ " vs " ++ Text.quote offered ++ ")"
  | .inconsistentHome id existing offered =>
      s!"inconsistent homes for dataset {id} " ++
        "(" ++ Text.quote existing ++ " vs " ++ Text.quote offered ++ ")"
  | .mixedDirection child expected found =>
      s!"tree contains both derived and source nodes: {child} is {found.title} " ++
        s!"under a {expected.title} parent"
  | .duplicateDetail edge =>
      "self-reference or duplicate subtrees detected for " ++
        s!"{edge.source} -> {edge.derived}: risk of infinite recursion"
  | .malformedDocument fault => "malformed lineage document: " ++ fault.message

/-- Whether the contradiction is a dataset derived from itself. -/
def isCycle : LineageError → Bool
  | .cyclicTree _ | .cyclicGraph _ => true
  | _ => false

end LineageError

end DatasetLineage
