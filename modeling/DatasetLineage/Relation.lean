import DatasetLineage.Direction

/-!
# Relations, snapshots and diffs

A relation is an edge with the role its source played.  A snapshot is what a
store holds, and a diff is what has to be written to bring a store in line with
newer lineage.
-/

namespace DatasetLineage

/-- An edge with its classifier, the role of the source, such as `nbar`. -/
structure Relation where
  classifier : String
  source : DatasetId
  derived : DatasetId
deriving DecidableEq, Inhabited

def Relation.edge (relation : Relation) : Edge :=
  ⟨relation.source, relation.derived⟩

abbrev Homes := OrderedMap DatasetId String

/-- A set of dataset ids in ascending order. -/
abbrev IdSet := OrderedMap DatasetId Unit

namespace IdSet

def add (ids : IdSet) (id : DatasetId) : IdSet :=
  ids.insert id ()

def addAll (ids : IdSet) (more : List DatasetId) : IdSet :=
  more.foldl add ids

def ofList (ids : List DatasetId) : IdSet :=
  addAll OrderedMap.empty ids

theorem contains_add {ids : IdSet} {id other : DatasetId} :
    (add ids id).contains other = true ↔ ids.contains other = true ∨ other = id := by
  rw [add, OrderedMap.contains, OrderedMap.get?_insert]
  split
  · next heq => simp [rank_eq_iff.1 heq]
  · next hne =>
      rw [← OrderedMap.contains]
      constructor
      · exact .inl
      · rintro (h | rfl)
        · exact h
        · exact absurd rfl hne

theorem contains_addAll {ids : IdSet} {more : List DatasetId} {other : DatasetId} :
    (addAll ids more).contains other = true ↔
      ids.contains other = true ∨ other ∈ more := by
  induction more generalizing ids with
  | nil => simp [addAll]
  | cons id rest ih =>
      rw [addAll, List.foldl_cons, ← addAll, ih, contains_add]
      simp only [List.mem_cons, or_assoc]

end IdSet

/-- Homes and relations, the relations in the order in which they were stored. -/
structure Snapshot where
  homes : Homes := OrderedMap.empty
  relations : List Relation := []
deriving DecidableEq, Inhabited

/-- The records to write into a store. -/
structure Diff where
  relationsToAdd : List Relation := []
  relationsToUpdate : List Relation := []
  homesToAdd : Homes := OrderedMap.empty
  homesToUpdate : Homes := OrderedMap.empty
deriving DecidableEq, Inhabited

namespace Diff

def isEmpty (diff : Diff) : Bool :=
  diff.relationsToAdd.isEmpty && diff.relationsToUpdate.isEmpty &&
    diff.homesToAdd.isEmpty && diff.homesToUpdate.isEmpty

def added (diff : Diff) : Nat :=
  diff.relationsToAdd.length + diff.homesToAdd.size

def updated (diff : Diff) : Nat :=
  diff.relationsToUpdate.length + diff.homesToUpdate.size

def totalRecords (diff : Diff) : Nat :=
  diff.added + diff.updated

end Diff

end DatasetLineage
