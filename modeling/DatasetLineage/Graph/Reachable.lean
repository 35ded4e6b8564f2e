import DatasetLineage.Failure
import DatasetLineage.Graph.Basic

/-!
# Reachable datasets

Everything that can be reached from a dataset, in breadth-first order: first what
is one step away, then what is two steps away, and so on.
-/

namespace DatasetLineage

namespace Graph

/-- Search from the datasets in a queue.  One after the other is taken from the
front, and what it leads to and was not seen yet is found and put at the end. -/
def searchQueue (graph : Graph) (direction : Direction)
    (unseen queue : List DatasetId) : List DatasetId :=
  match queue with
  | [] => []
  | current :: waiting =>
      let claimed := claim (graph.neighbours direction current) unseen
      claimed.1 ++ searchQueue graph direction claimed.2 (waiting ++ claimed.1)
termination_by unseen.length + queue.length
decreasing_by
  have hclaimed := length_claim_add_le (graph.neighbours direction current) unseen
  simp only [List.length_append, List.length_cons]
  omega

/-- Every dataset reachable from `id` in a direction, the nearest first. -/
def reachable (graph : Graph) (direction : Direction) (id : DatasetId) :
    Except Failure (List DatasetId) :=
  if id ∈ graph.nodes then
    .ok (graph.searchQueue direction (without graph.nodes id) [id])
  else .error (.refused (.notInGraph id))

/-- Everything derived from a dataset, directly or not. -/
def descendants (graph : Graph) (id : DatasetId) : Except Failure (List DatasetId) :=
  graph.reachable .derived id

/-- Everything a dataset was derived from, directly or not. -/
def ancestors (graph : Graph) (id : DatasetId) : Except Failure (List DatasetId) :=
  graph.reachable .sources id

end Graph

end DatasetLineage
