import DatasetLineage.Collection.Compare
import DatasetLineage.Failure

/-!
# A store in memory

The store holds the datasets it knows, their homes, and relations in the order in
which they were added, with the position of each edge in that list.  A diff is
checked as a whole before anything is written.
-/

namespace DatasetLineage

/-- What a store holds. -/
structure MemoryStore where
  datasets : IdSet := OrderedMap.empty
  relations : List Relation := []
  /-- The position of each edge in the list of relations. -/
  positions : OrderedMap Edge Nat := OrderedMap.empty
  homes : Homes := OrderedMap.empty
deriving DecidableEq, Inhabited

/-- An operation on a store.  What a failed operation leaves behind is part of
its result. -/
abbrev StoreAction := EStateM Failure MemoryStore

namespace MemoryStore

/-- The position of each edge in a list of relations, counted from `start`. -/
def positionsFrom (start : Nat) (relations : List Relation)
    (positions : OrderedMap Edge Nat) : OrderedMap Edge Nat :=
  match relations with
  | [] => positions
  | relation :: rest =>
      positionsFrom (start + 1) rest (positions.insert relation.edge start)

def endpointsOf (relations : List Relation) : List DatasetId :=
  relations.flatMap fun relation => [relation.source, relation.derived]

def endpoints (store : MemoryStore) : List DatasetId :=
  endpointsOf store.relations

/-- A store with the lineage of a snapshot, which has to be consistent.  Every
dataset that the snapshot mentions is known. -/
def ofSnapshot (snapshot : Snapshot) : Except Failure MemoryStore := do
  let collection ← (Collection.ofSnapshot snapshot).mapError
    (Failure.contradiction .seedingStore)
  pure
    { datasets :=
        IdSet.addAll (IdSet.ofList collection.homes.keys) (endpointsOf collection.relations)
      relations := collection.relations
      positions := positionsFrom 0 collection.relations OrderedMap.empty
      homes := collection.homes }

def snapshot (store : MemoryStore) : Snapshot :=
  ⟨store.homes, store.relations⟩

def holds (store : MemoryStore) (id : DatasetId) : Bool :=
  store.datasets.contains id

/-- The stored homes of some datasets and every stored relation that touches one
of them. -/
def fetch (store : MemoryStore) (ids : List DatasetId) : Except Failure Collection := do
  let homes ← (Collection.empty.afterMerging
    (ids.forM fun id => Collection.mergeHome? id (store.homes.get? id))).mapError
      (Failure.contradiction .fetchingHomes)
  let touching := store.relations.filter fun relation =>
    relation.source ∈ ids || relation.derived ∈ ids
  (homes.afterMerging (touching.forM Collection.mergeRelation)).mapError
    (Failure.contradiction .fetchingLineage)

def register (ids : List DatasetId) : StoreAction Unit := fun store =>
  .ok () { store with datasets := IdSet.addAll store.datasets ids }

/-- Why a diff cannot be written, if it cannot: what it adds has to be absent, and
what it updates present. -/
def obstacle? (store : MemoryStore) (diff : Diff) : Option Refusal :=
  (diff.relationsToAdd.find? fun relation => store.positions.contains relation.edge).map
      (fun relation => Refusal.relationPresent relation.edge) <|>
    (diff.relationsToUpdate.find? fun relation =>
      !store.positions.contains relation.edge).map
        (fun relation => Refusal.relationAbsent relation.edge) <|>
    (diff.homesToAdd.keys.find? fun id => store.homes.contains id).map
      Refusal.homePresent <|>
    (diff.homesToUpdate.keys.find? fun id => !store.homes.contains id).map
      Refusal.homeAbsent

def appendRelation (store : MemoryStore) (relation : Relation) : MemoryStore :=
  { store with
    relations := store.relations ++ [relation]
    positions := store.positions.insert relation.edge store.relations.length }

/-- Change the classifier of a stored relation in its place. -/
def relabel (store : MemoryStore) (relation : Relation) : MemoryStore :=
  match store.positions.get? relation.edge with
  | some position =>
      { store with
        relations := store.relations.modify position fun stored =>
          { stored with classifier := relation.classifier } }
  | none => store

/-- Write the records of a diff, all of them or none. -/
def apply (diff : Diff) : StoreAction Unit := fun store =>
  match store.obstacle? diff with
  | some refusal => .error (.refused refusal) store
  | none =>
      let extended := diff.relationsToAdd.foldl appendRelation store
      let relabelled := diff.relationsToUpdate.foldl relabel extended
      .ok ()
        { relabelled with
          homes := (relabelled.homes.override diff.homesToAdd).override diff.homesToUpdate }

/-- Remove the stored relations between the given pairs, and say how many. -/
def removeRelations (doomed : List Edge) : StoreAction Nat := fun store =>
  let kept := store.relations.filter fun relation => relation.edge ∉ doomed
  .ok (store.relations.length - kept.length)
    { store with
      relations := kept
      positions := positionsFrom 0 kept OrderedMap.empty }

/-- Forget homes, and say how many were recorded. -/
def clearHomes : List DatasetId → StoreAction Nat
  | [] => pure 0
  | id :: rest => do
      let recorded := (← get).homes.contains id
      modify fun store => { store with homes := store.homes.erase id }
      let others ← clearHomes rest
      pure (if recorded then others + 1 else others)

end MemoryStore

end DatasetLineage
