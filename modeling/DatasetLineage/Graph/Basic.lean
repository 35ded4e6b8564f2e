import DatasetLineage.Collection.Merge

/-!
# The graph of a collection

A collection seen as a whole: its datasets as nodes, in ascending order of their
ids, and its relations as edges from sources to derived datasets.  Neighbours
come in the order of their edges, the latest edge first.
-/

namespace DatasetLineage

/-- Datasets and the relations between them. -/
structure Graph where
  nodes : List DatasetId := []
  edges : List Relation := []
deriving Inhabited

namespace Graph

def ofCollection (collection : Collection) : Graph :=
  ⟨collection.datasetIds, collection.relations⟩

/-- The datasets one step away: those derived from `id`, or its sources. -/
def neighbours (graph : Graph) (direction : Direction) (id : DatasetId) :
    List DatasetId :=
  graph.edges.reverse.filterMap fun relation =>
    match direction with
    | .derived => if relation.source = id then some relation.derived else none
    | .sources => if relation.derived = id then some relation.source else none

/-- The datasets without a neighbour in a direction. -/
def ends (graph : Graph) (direction : Direction) : List DatasetId :=
  graph.nodes.filter fun id => (graph.neighbours direction id).isEmpty

/-- Datasets that were derived from nothing. -/
def roots (graph : Graph) : List DatasetId :=
  graph.ends .sources

/-- Datasets nothing was derived from. -/
def leaves (graph : Graph) : List DatasetId :=
  graph.ends .derived

theorem length_neighbours_le (graph : Graph) (direction : Direction) (id : DatasetId) :
    (graph.neighbours direction id).length ≤ graph.edges.length := by
  rw [neighbours]
  exact Nat.le_trans (List.length_filterMap_le _ _) (by simp)

end Graph

end DatasetLineage
