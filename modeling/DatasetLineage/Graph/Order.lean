import DatasetLineage.Graph.Reachable

/-!
# Topological order

A depth-first search over the graph that lists a dataset once everything derived
from it has been listed; read backwards, sources come before what was derived
from them.  The order is then checked by walks against the edges, one from each
dataset in turn.  No walk enters what an earlier one has discovered, so without a
cycle none comes further than the dataset it starts from.
-/

namespace DatasetLineage

namespace Graph

/-- How far a depth-first search has come: the datasets not yet discovered, and
the finished ones, the latest first. -/
structure SearchState where
  undiscovered : List DatasetId
  finished : List DatasetId

/-- Search from the datasets on a stack.  A dataset on top of the stack is
discovered first, which puts its undiscovered neighbours on top of it, and
finished when it comes up again. -/
def searchStack (graph : Graph) (undiscovered finished stack : List DatasetId) :
    SearchState :=
  match stack with
  | [] => ⟨undiscovered, finished⟩
  | top :: below =>
      if top ∈ undiscovered then
        let remaining := without undiscovered top
        let pushed := (graph.neighbours .derived top).filter (· ∈ remaining)
        searchStack graph remaining finished (pushed.reverse ++ top :: below)
      else if top ∈ finished then searchStack graph undiscovered finished below
      else searchStack graph undiscovered (top :: finished) below
termination_by undiscovered.length * (graph.edges.length + 1) + stack.length
decreasing_by
  · have hpushed : ((graph.neighbours .derived top).filter
        (· ∈ without undiscovered top)).length ≤ graph.edges.length :=
      Nat.le_trans (List.length_filter_le _ _) (graph.length_neighbours_le _ _)
    have hremaining := length_without_lt ‹top ∈ undiscovered›
    have hproduct : (without undiscovered top).length * (graph.edges.length + 1) +
        (graph.edges.length + 1) ≤ undiscovered.length * (graph.edges.length + 1) := by
      rw [← Nat.succ_mul]
      exact Nat.mul_le_mul_right _ hremaining
    simp only [List.length_append, List.length_reverse, List.length_cons]
    omega
  · simp
  · simp

/-- Search from a dataset unless it was discovered before. -/
def visit (graph : Graph) (state : SearchState) (id : DatasetId) : SearchState :=
  if id ∈ state.undiscovered then
    graph.searchStack state.undiscovered state.finished [id]
  else state

/-- Every dataset after the datasets derived from it, read from the end. -/
def finishingOrder (graph : Graph) : List DatasetId :=
  (graph.nodes.foldl graph.visit ⟨graph.nodes, []⟩).finished

/-- One step of a walk against the edges: datasets are taken off a stack until one
comes up that was not discovered.  It is discovered now, and its undiscovered
sources are put on the stack. -/
def walkBack? (graph : Graph) (discovered : List DatasetId) :
    (stack : List DatasetId) → Option (DatasetId × List DatasetId × List DatasetId)
  | [] => none
  | top :: below =>
      if top ∈ discovered then walkBack? graph discovered below
      else
        let discovered := top :: discovered
        let pushed := (graph.neighbours .sources top).filter (· ∉ discovered)
        some (top, discovered, pushed.reverse ++ below)

/-- Walk back from the datasets of an order, one after the other.  A walk that comes
to a second dataset has found a cycle there. -/
def secondReached? (graph : Graph) :
    (discovered order : List DatasetId) → Option DatasetId
  | _, [] => none
  | discovered, id :: rest =>
      match graph.walkBack? discovered [id] with
      | none => secondReached? graph discovered rest
      | some (_, discovered, stack) =>
          match graph.walkBack? discovered stack with
          | none => secondReached? graph discovered rest
          | some (second, _) => some second

/-- The datasets, sources before everything derived from them. -/
def topologicalOrder (graph : Graph) : Except Failure (List DatasetId) :=
  match graph.secondReached? [] graph.finishingOrder with
  | some id => .error (.refused (.cyclicOrder id))
  | none => .ok graph.finishingOrder

end Graph

end DatasetLineage
