import DatasetLineage.Collection.Merge

/-!
# Extracting trees

The tree of everything reachable from a dataset in one direction.  A dataset
comes once per path that leads to it, so a diamond repeats it, and a path that
returns to itself has no tree.  A tree can be cut off after some levels: a node
at the cut is unexplored if it has neighbours, and a leaf if it has none.
-/

namespace DatasetLineage

namespace Collection

/-- The tree below `id`, entering only the given ids. -/
def extractFrom (collection : Collection) (direction : Direction)
    (enterable : List DatasetId) (levels : Levels) (id : DatasetId) :
    Except LineageError Tree :=
  if id ∈ enterable then
    let neighbours := collection.neighbours direction id
    if levels = some 0 ∧ neighbours ≠ [] then
      .ok (.node direction id (collection.home id) .unknown)
    else
      match neighbours.foldlM
          (fun groups next => do
            let below ←
              extractFrom collection direction (without enterable id) levels.next next.id
            pure (addToGroup next.classifier below groups))
          [] with
      | .ok groups => .ok (.node direction id (collection.home id) (.ofGroups groups))
      | .error error => .error error
  else .error (.cyclicGraph id)
termination_by enterable.length
decreasing_by exact length_without_lt ‹_›

/-- The tree of a dataset down to `bound` levels, all of them if `bound` is zero. -/
def extractTreeToDepth (collection : Collection) (root : DatasetId)
    (direction : Direction) (bound : Nat) : Except LineageError Tree :=
  collection.extractFrom direction (collection.enterable root) (.ofBound bound) root

def extractTree (collection : Collection) (root : DatasetId) (direction : Direction) :
    Except LineageError Tree :=
  collection.extractFrom direction (collection.enterable root) none root

end Collection

end DatasetLineage
