import DatasetLineage.Graph.Order

/-!
# Depths and statistics

The longest derivation that starts at each dataset, and the figures of a graph.
-/

namespace DatasetLineage

namespace Graph

abbrev Depths := OrderedMap DatasetId Nat

/-- The number of steps on the longest derivation that starts at `id`, and the depths
known afterwards.  What is known is looked up, and all else is measured once.  There
is no result if a derivation comes back to a dataset on the way to it, since that
could be followed for ever; the ids not on the way are those that may be entered. -/
def depthFrom (graph : Graph) (enterable : List DatasetId) (known : Depths)
    (id : DatasetId) : Option (Nat × Depths) :=
  match known.get? id with
  | some depth => some (depth, known)
  | none =>
      if id ∈ enterable then
        match (graph.neighbours .derived id).foldlM
            (fun (deepest, known) next =>
              (depthFrom graph (without enterable id) known next).map
                fun (depth, known) => (max deepest (depth + 1), known))
            (0, known) with
        | some (depth, known) => some (depth, known.insert id depth)
        | none => none
      else none
termination_by enterable.length
decreasing_by exact length_without_lt ‹_›

/-- The number of steps on the longest derivation that starts at a dataset, zero if
there is no end to it. -/
def maxDerivationDepth (graph : Graph) (id : DatasetId) : Except Failure Nat :=
  if id ∈ graph.nodes then
    .ok (((graph.depthFrom graph.nodes OrderedMap.empty id).map Prod.fst).getD 0)
  else .error (.refused (.notInGraph id))

/-- Count one more occurrence of a label; labels are kept in ascending order. -/
def countLabel (label : String) : List (String × Nat) → List (String × Nat)
  | [] => [(label, 1)]
  | (other, count) :: rest =>
      if label < other then (label, 1) :: (other, count) :: rest
      else if label = other then (other, count + 1) :: rest
      else (other, count) :: countLabel label rest

/-- The figures of a graph. -/
structure Statistics where
  totalDatasets : Nat
  totalRelations : Nat
  rootDatasets : Nat
  leafDatasets : Nat
  longestDerivation : Nat
  classifiers : List (String × Nat)

/-- The figures of a graph.  The longest derivation starts at a root. -/
def statistics (graph : Graph) : Statistics :=
  { totalDatasets := graph.nodes.length
    totalRelations := graph.edges.length
    rootDatasets := graph.roots.length
    leafDatasets := graph.leaves.length
    longestDerivation :=
      (graph.roots.filterMap fun id => (graph.maxDerivationDepth id).toOption).foldl max 0
    classifiers :=
      graph.edges.foldl (fun counts relation => countLabel relation.classifier counts) [] }

end Graph

end DatasetLineage
