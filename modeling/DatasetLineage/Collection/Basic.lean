import DatasetLineage.Tree.Traversal

/-!
# Collections

A collection holds the lineage merged so far: the homes of datasets, the
relations in the order in which they were first seen, and for every edge the one
detailed subtree that was supplied for it.  Lookups go through indices, a map
from edges to classifiers and the neighbours of each dataset on either side,
which every operation keeps in step with the list of relations.
-/

namespace DatasetLineage

/-- A dataset next to another one, with the classifier of the edge between them. -/
structure Neighbour where
  id : DatasetId
  classifier : String
deriving DecidableEq, Inhabited

/-- Lineage merged so far. -/
structure Collection where
  homes : Homes := OrderedMap.empty
  /-- Distinct relations in the order in which they were first seen. -/
  relations : List Relation := []
  /-- The classifier of each edge. -/
  classifiers : OrderedMap Edge String := OrderedMap.empty
  /-- The datasets derived from each source. -/
  bySource : OrderedMap DatasetId (List Neighbour) := OrderedMap.empty
  /-- The sources of each derived dataset. -/
  byDerived : OrderedMap DatasetId (List Neighbour) := OrderedMap.empty
  /-- Every dataset mentioned by a relation or by a node of a merged tree. -/
  known : IdSet := OrderedMap.empty
  /-- The detailed subtree registered for an edge. -/
  details : OrderedMap Edge Tree := OrderedMap.empty
deriving Inhabited

namespace Collection

def empty : Collection := {}

instance : EmptyCollection Collection := ⟨empty⟩

def home (collection : Collection) (id : DatasetId) : Option String :=
  collection.homes.get? id

/-- The classifier of the relation between two datasets. -/
def classifier (collection : Collection) (edge : Edge) : Option String :=
  collection.classifiers.get? edge

def contains (collection : Collection) (id : DatasetId) : Bool :=
  collection.known.contains id

def datasetIds (collection : Collection) : List DatasetId :=
  collection.known.keys

/-- Number of distinct relations. -/
def size (collection : Collection) : Nat :=
  collection.relations.length

def isEmpty (collection : Collection) : Bool :=
  collection.relations.isEmpty && collection.homes.isEmpty

def neighboursIn (index : OrderedMap DatasetId (List Neighbour)) (id : DatasetId) :
    List Neighbour :=
  (index.get? id).getD []

/-- The direct neighbours of a dataset: its sources, or what was derived from it,
in the order in which their relations were first seen. -/
def neighbours (collection : Collection) (direction : Direction) (id : DatasetId) :
    List Neighbour :=
  match direction with
  | .sources => neighboursIn collection.byDerived id
  | .derived => neighboursIn collection.bySource id

def toSnapshot (collection : Collection) : Snapshot :=
  ⟨collection.homes, collection.relations⟩

end Collection

end DatasetLineage
