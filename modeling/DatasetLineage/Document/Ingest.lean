import DatasetLineage.Document.TreeDocument

/-!
# Ingest documents

The metadata with which a dataset was ingested names the dataset under `id`, and
under `lineage` and `source_datasets` the ids of the datasets it was derived from,
listed by classifier.  Such a document describes a tree of one level.
-/

namespace DatasetLineage

namespace Tree

/-- Whether a document is ingest metadata and not a tree document. -/
def isIngest (value : Json) : Bool :=
  (value.field? "id").isSome && (value.field? "dataset_id").isNone

/-- The ids listed under one classifier; a single id may stand without a list. -/
def listedIds (classifier : String) : Json → Except LineageError (List DatasetId)
  | .array ids => ids.mapM fun id => readId (some id)
  | .text id => do pure [← readId (some (.text id))]
  | found => malformed (.sourcesNotIds classifier found.compact)

/-- The ids listed under every classifier, if there is a listing. -/
def listedSources : Option Json →
    Except LineageError (Option (List (String × List DatasetId)))
  | none | some .null => .ok none
  | some (.object groups) => do
      let listing ← groups.mapM fun (classifier, ids) => do
        pure (classifier, ← listedIds classifier ids)
      pure (some listing)
  | some found => malformed (.sourcesNotObject found.compact)

/-- The tree of an ingest document.  The listed datasets get the given home. -/
def ofIngest (value : Json) (home : Option String) : Except LineageError Tree := do
  let id ← readId (value.field? "id")
  let listed := do (← value.field? "lineage").field? "source_datasets"
  let listing ← listedSources listed
  pure (ofListing id .sources listing home)

end Tree

end DatasetLineage
