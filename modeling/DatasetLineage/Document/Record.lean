import DatasetLineage.Graph.Statistics
import DatasetLineage.Json.Basic
import DatasetLineage.Relation

/-!
# Records in documents

Relations, snapshots and diffs as values of a document.  A record is written as an
object with its fields in a fixed order.  It is read from an object, whatever else
that holds, or from an array of its fields in that order.
-/

namespace DatasetLineage

namespace Json

/-- The fields of a record by their names, or by their places in an array. -/
def record? (names : List String) : Json → Option (List (Option Json))
  | .object fields => some (names.map fun name => fields.lookup name)
  | .array items =>
      if items.length ≤ names.length then
        some (items.map some ++ List.replicate (names.length - items.length) none)
      else none
  | _ => none

def id? (value : Json) : Option DatasetId := do
  DatasetId.ofText? (← value.text?)

def ofId (id : DatasetId) : Json :=
  .text (toString id)

def ids? (value : Json) : Option (List DatasetId) := do
  (← value.items?).mapM id?

end Json

namespace Homes

/-- The homes of an object from ids to homes.  Where two names spell one id the
later counts. -/
def ofJson? (value : Json) : Option Homes := do
  let entries ← (← value.fields?).mapM fun (name, home) => do
    some (← DatasetId.ofText? name, ← home.text?)
  some (OrderedMap.ofList entries)

def toJson (homes : Homes) : Json :=
  .object (homes.entries.map fun (id, home) => (toString id, .text home))

end Homes

namespace Relation

def fieldNames : List String := ["classifier", "source_id", "derived_id"]

def ofJson? (value : Json) : Option Relation := do
  match ← Json.record? fieldNames value with
  | [some classifier, some source, some derived] =>
      some ⟨← classifier.text?, ← source.id?, ← derived.id?⟩
  | _ => none

def toJson (relation : Relation) : Json :=
  .object
    [("classifier", .text relation.classifier), ("source_id", .ofId relation.source),
      ("derived_id", .ofId relation.derived)]

def listOfJson? (value : Json) : Option (List Relation) := do
  (← value.items?).mapM ofJson?

def listToJson (relations : List Relation) : Json :=
  .array (relations.map toJson)

end Relation

namespace Snapshot

def fieldNames : List String := ["homes", "relations"]

/-- The snapshot of a record in which either field may be missing. -/
def ofJson? (value : Json) : Option Snapshot := do
  match ← Json.record? fieldNames value with
  | [homes, relations] =>
      let homes ← match homes with
        | none => some OrderedMap.empty
        | some homes => Homes.ofJson? homes
      let relations ← match relations with
        | none => some []
        | some relations => Relation.listOfJson? relations
      some ⟨homes, relations⟩
  | _ => none

def toJson (snapshot : Snapshot) : Json :=
  .object
    [("homes", Homes.toJson snapshot.homes),
      ("relations", Relation.listToJson snapshot.relations)]

end Snapshot

namespace Diff

def fieldNames : List String :=
  ["relations_to_add", "relations_to_update", "homes_to_add", "homes_to_update"]

def ofJson? (value : Json) : Option Diff := do
  match ← Json.record? fieldNames value with
  | [some relationsToAdd, some relationsToUpdate, some homesToAdd, some homesToUpdate] =>
      some
        { relationsToAdd := ← Relation.listOfJson? relationsToAdd
          relationsToUpdate := ← Relation.listOfJson? relationsToUpdate
          homesToAdd := ← Homes.ofJson? homesToAdd
          homesToUpdate := ← Homes.ofJson? homesToUpdate }
  | _ => none

def toJson (diff : Diff) : Json :=
  .object
    [("relations_to_add", Relation.listToJson diff.relationsToAdd),
      ("relations_to_update", Relation.listToJson diff.relationsToUpdate),
      ("homes_to_add", Homes.toJson diff.homesToAdd),
      ("homes_to_update", Homes.toJson diff.homesToUpdate)]

end Diff

def Graph.Statistics.toJson (statistics : Graph.Statistics) : Json :=
  .object
    [("total_datasets", .ofNat statistics.totalDatasets),
      ("total_relations", .ofNat statistics.totalRelations),
      ("root_datasets", .ofNat statistics.rootDatasets),
      ("leaf_datasets", .ofNat statistics.leafDatasets),
      ("longest_derivation", .ofNat statistics.longestDerivation),
      ("classifiers",
        .object (statistics.classifiers.map fun (label, count) => (label, .ofNat count)))]

end DatasetLineage
