import DatasetLineage.DatasetId

/-!
# Directions and edges

Lineage is read in two directions: from a dataset to the datasets it was derived
from, or to the datasets derived from it.  Whatever the direction of reading, an
edge always leads from a source to the dataset derived from it.
-/

namespace DatasetLineage

/-- The sense in which a tree of lineage is read. -/
inductive Direction where
  /-- Children are the datasets their parent was derived from. -/
  | sources
  /-- Children are the datasets derived from their parent. -/
  | derived
deriving DecidableEq, Inhabited

/-- A pair of datasets: a source and a dataset derived from it. -/
structure Edge where
  source : DatasetId
  derived : DatasetId
deriving DecidableEq, Inhabited

namespace Edge

/-- Edges are ordered by their source, then by their derived end. -/
instance : Ranked Edge where
  rank edge := edge.source.value * DatasetId.limit + edge.derived.value
  rank_injective {left right} heq := by
    obtain ⟨leftSource, leftDerived⟩ := left
    obtain ⟨rightSource, rightDerived⟩ := right
    have hleft := leftDerived.bounded
    have hright := rightDerived.bounded
    simp only [DatasetId.limit] at heq hleft hright
    have hsource : leftSource = rightSource := Ranked.rank_injective (by
      simp only [rank]
      omega)
    have hderived : leftDerived = rightDerived := Ranked.rank_injective (by
      simp only [rank]
      omega)
    rw [hsource, hderived]

end Edge

namespace Direction

def opposite : Direction → Direction
  | .sources => .derived
  | .derived => .sources

/-- The name of a direction, which is also its key in documents. -/
def name : Direction → String
  | .sources => "sources"
  | .derived => "derived"

instance : ToString Direction := ⟨name⟩

def ofLowered? : String → Option Direction
  | "sources" => some .sources
  | "source" => some .sources
  | "derived" => some .derived
  | _ => none

/-- The name of a direction inside a message about mixed trees. -/
def title : Direction → String
  | .sources => "Sources"
  | .derived => "Derived"

/-- The edge between a parent and its child in a tree of this direction. -/
def edge (direction : Direction) (parent child : DatasetId) : Edge :=
  match direction with
  | .sources => ⟨child, parent⟩
  | .derived => ⟨parent, child⟩

@[simp]
theorem opposite_opposite (direction : Direction) :
    direction.opposite.opposite = direction := by
  cases direction <;> rfl

theorem edge_opposite (direction : Direction) (parent child : DatasetId) :
    direction.opposite.edge child parent = direction.edge parent child := by
  cases direction <;> rfl

end Direction

end DatasetLineage
