import DatasetLineage.Collection.Extract
import DatasetLineage.Settings.Basic
import DatasetLineage.Store.Fetch

/-!
# An index of lineage

The operations of an index on top of a store.  Before anything is written, new
lineage is checked against all stored lineage connected to it; a tree is read,
and lineage removed, from the part of the store around its root.
-/

namespace DatasetLineage

namespace Index

def requireKnown (store : MemoryStore) (ids : List DatasetId) : Except Failure Unit :=
  match ids.find? fun id => !store.holds id with
  | some id => .error (.refused (.unknownDataset id))
  | none => .ok ()

/-- The datasets that lineage to be written touches, in ascending order. -/
def touched (collection : Collection) : List DatasetId :=
  (IdSet.addAll collection.known collection.homes.keys).keys

/-- What has to be written to merge a collection into existing lineage.  Updates
only change classifiers and homes, so with updates allowed the new edges still
have to leave the existing lineage without a cycle. -/
def plan (collection existing : Collection) (allowUpdates : Bool) :
    Except Failure Diff := do
  let diff ← (collection.diffAgainst (some existing) allowUpdates).mapError
    (Failure.contradiction .comparingStored)
  if allowUpdates then
    discard <| (existing.afterMerging
      (diff.relationsToAdd.forM Collection.mergeRelation)).mapError
        (Failure.contradiction .extendingStored)
  pure diff

/-- The diff that merging a collection comes down to, before it is written. -/
def prepare (settings : StoreSettings) (collection : Collection) (allowUpdates : Bool)
    (store : MemoryStore) : Except Failure Diff := do
  let ids := touched collection
  if settings.requireKnownDatasets then requireKnown store ids
  let existing ← store.fetchClosure settings.maxFetchRounds ids
  plan collection existing allowUpdates

/-- Write a diff unless there is nothing to write. -/
def write (activity : Activity) (diff : Diff) : StoreAction Unit :=
  if diff.isEmpty then pure ()
  else EStateM.adaptExcept (Failure.during activity) (MemoryStore.apply diff)

/-- Merge a collection into the store and return what was written. -/
def merge (settings : StoreSettings) (collection : Collection) (allowUpdates : Bool) :
    StoreAction Diff := do
  let diff ← MonadExcept.ofExcept (prepare settings collection allowUpdates (← get))
  write .writingLineage diff
  pure diff

/-- Add a tree down to some levels of edges, all of them if `bound` is zero. -/
def add (settings : StoreSettings) (tree : Tree) (bound : Nat) (allowUpdates : Bool) :
    StoreAction Diff := do
  let collection ← MonadExcept.ofExcept <|
    (Collection.ofTree tree bound).mapError (Failure.contradiction (.addingTree tree.id))
  merge settings collection allowUpdates

/-- The records that give a home to datasets.  Another home is replaced only if
updates are allowed. -/
def homeDiff (existing : Collection) (home : String) (allowUpdates : Bool)
    (ids : List DatasetId) : Diff :=
  ids.foldl
    (fun diff id =>
      match existing.home id with
      | none => { diff with homesToAdd := diff.homesToAdd.insert id home }
      | some current =>
          if current ≠ home ∧ allowUpdates then
            { diff with homesToUpdate := diff.homesToUpdate.insert id home }
          else diff)
    {}

/-- Record a home for datasets and return the number of homes written. -/
def setHome (settings : StoreSettings) (home : String) (ids : List DatasetId)
    (allowUpdates : Bool) : StoreAction Nat := do
  let store ← get
  if settings.requireKnownDatasets then MonadExcept.ofExcept (requireKnown store ids)
  let existing ← MonadExcept.ofExcept (store.fetch ids)
  let diff := homeDiff existing home allowUpdates ids
  write .writingHomes diff
  pure diff.totalRecords

def getHomes (ids : List DatasetId) (store : MemoryStore) : Except Failure Homes := do
  let fetched ← store.fetch ids
  pure <| ids.foldl
    (fun homes id =>
      match fetched.home id with
      | some home => homes.insert id home
      | none => homes)
    OrderedMap.empty

/-- Forget the homes of datasets and return how many there were. -/
def clearHome (ids : List DatasetId) : StoreAction Nat :=
  MemoryStore.clearHomes ids

/-- The tree of a dataset in a direction, down to `bound` levels, all of them if
`bound` is zero. -/
def getTree (direction : Direction) (id : DatasetId) (bound : Nat) (store : MemoryStore) :
    Except Failure Tree := do
  let stored ← store.fetchDirected direction (.ofBound bound) id
  (stored.extractTreeToDepth id direction bound).mapError
    (Failure.contradiction (.extractingTree direction id))

/-- The stored edges below a layer of datasets, layer after layer.  A dataset that
was met before is not followed again. -/
def edgesBelow (stored : Collection) (direction : Direction) (levels : Levels)
    (unseen layer : List DatasetId) : List Edge :=
  if levels = some 0 then []
  else
    let links := layer.flatMap fun parent =>
      (stored.neighbours direction parent).map fun next => (parent, next.id)
    let claimed := claim (links.map (·.2)) unseen
    let edges := links.map fun link => direction.edge link.1 link.2
    if claimed.1 = [] then edges
    else edges ++ edgesBelow stored direction levels.next claimed.2 claimed.1
termination_by unseen.length
decreasing_by exact length_claim_lt ‹_›

/-- Remove the stored lineage of a dataset in a direction, down to `bound` levels,
all of them if `bound` is zero, and return the number of relations removed.
Datasets and homes stay. -/
def remove (id : DatasetId) (direction : Direction) (bound : Nat) : StoreAction Nat := do
  let stored ← MonadExcept.ofExcept <|
    (← get).fetchDirected direction (.ofBound bound) id
  let doomed :=
    edgesBelow stored direction (.ofBound bound) (without stored.datasetIds id) [id]
  if doomed.isEmpty then pure 0 else MemoryStore.removeRelations doomed

end Index

end DatasetLineage
