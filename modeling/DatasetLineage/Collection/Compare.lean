import DatasetLineage.Collection.Merge

/-!
# Comparing collections

What has to be written to bring one collection in line with another.  A strict
comparison merges the two in a scratch copy first, so any contradiction between
them, cycles included, makes it fail.  A permissive one lists differing records
as updates.
-/

namespace DatasetLineage

namespace Collection

/-- Sort a home into the part of a diff it belongs to. -/
def compareHome (existing : Collection) (allowUpdates : Bool) (diff : Diff)
    (id : DatasetId) (home : String) : Except LineageError Diff :=
  match existing.homes.get? id with
  | none => .ok { diff with homesToAdd := diff.homesToAdd.insert id home }
  | some current =>
      if current = home then .ok diff
      else if allowUpdates then
        .ok { diff with homesToUpdate := diff.homesToUpdate.insert id home }
      else .error (.inconsistentHome id current home)

/-- Sort a relation into the part of a diff it belongs to. -/
def compareRelation (existing : Collection) (allowUpdates : Bool) (diff : Diff)
    (relation : Relation) : Except LineageError Diff :=
  match existing.classifiers.get? relation.edge with
  | none => .ok { diff with relationsToAdd := diff.relationsToAdd ++ [relation] }
  | some current =>
      if current = relation.classifier then .ok diff
      else if allowUpdates then
        .ok { diff with relationsToUpdate := diff.relationsToUpdate ++ [relation] }
      else .error (.inconsistentClassifier relation.edge current relation.classifier)

/-- The records of a collection that another one lacks or records otherwise. -/
def compareRecords (collection existing : Collection) (allowUpdates : Bool) :
    Except LineageError Diff := do
  let homes ← collection.homes.entries.foldlM
    (fun diff (id, home) => compareHome existing allowUpdates diff id home) {}
  collection.relations.foldlM (compareRelation existing allowUpdates) homes

/-- The records to write to merge a collection into an existing one; against
nothing, every record is new. -/
def diffAgainst (collection : Collection) (existing : Option Collection)
    (allowUpdates : Bool) : Except LineageError Diff :=
  match existing with
  | none =>
      .ok { relationsToAdd := collection.relations, homesToAdd := collection.homes }
  | some existing => do
      if !allowUpdates then discard <| collection.afterMerging (merge existing)
      collection.compareRecords existing allowUpdates

end Collection

end DatasetLineage
