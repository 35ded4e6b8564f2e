import DatasetLineage.Store.Index

/-!
# Calls that share a store

A merge reads the store several times before it writes, and other calls may get their turn
between two of its accesses.  A call stops at each access to the store.  What it does from
there to the next access depends on its own state alone, so an access and the work that
follows it are one step.
-/

namespace DatasetLineage

/-- What a client asks a merge for. -/
structure MergeRequest where
  collection : Collection
  allowUpdates : Bool

/-- Where a call of a merge has come to: its next access to the store, or its result. -/
inductive MergeCall where
  /-- Asks whether a dataset exists, and then whether others do. -/
  | checking (id : DatasetId) (rest : List DatasetId)
  /-- Fetches the relations around a frontier. -/
  | fetching (state : FetchState)
  /-- Writes what was planned. -/
  | writing (diff : Diff)
  | ended (result : Except Failure Diff)

namespace MergeRequest

/-- Compare with the stored lineage that was collected. -/
def planned (request : MergeRequest) (existing : Collection) : MergeCall :=
  match Index.plan request.collection existing request.allowUpdates with
  | .error failure => .ended (.error failure)
  | .ok diff => if diff.isEmpty then .ended (.ok diff) else .writing diff

/-- Go on with another round, if there is a frontier left and the limit allows it. -/
def fetchNext (settings : StoreSettings) (request : MergeRequest) (state : FetchState) :
    MergeCall :=
  let limit := settings.maxFetchRounds
  if state.frontier = [] then request.planned state.collected
  else if limit ≠ 0 ∧ limit ≤ state.rounds then .ended (.error (.refused (.tooManyRounds limit)))
  else .fetching state

/-- Go on with the datasets that are to be checked, and after them with the first round. -/
def checkNext (settings : StoreSettings) (request : MergeRequest) : List DatasetId → MergeCall
  | [] => request.fetchNext settings { frontier := Index.touched request.collection }
  | id :: rest => .checking id rest

def start (settings : StoreSettings) (request : MergeRequest) : MergeCall :=
  request.checkNext settings <|
    if settings.requireKnownDatasets then Index.touched request.collection else []

/-- One access of a call to the store, and its work up to the next access. -/
def step (settings : StoreSettings) (request : MergeRequest) (call : MergeCall)
    (store : MemoryStore) : MergeCall × MemoryStore :=
  match call with
  | .checking id rest =>
      if store.holds id then (request.checkNext settings rest, store)
      else (.ended (.error (.refused (.unknownDataset id))), store)
  | .fetching state =>
      match store.fetch state.frontier with
      | .error failure => (.ended (.error failure), store)
      | .ok batch =>
          match state.advance (fun _ => true) batch with
          | .error failure => (.ended (.error failure), store)
          | .ok next => (request.fetchNext settings next, store)
  | .writing diff =>
      match Index.write .writingLineage diff store with
      | .ok _ after => (.ended (.ok diff), after)
      | .error failure after => (.ended (.error failure), after)
  | .ended result => (.ended result, store)

end MergeRequest

/-- One of two clients. -/
inductive Client where
  | first
  | second
deriving DecidableEq

/-- A store and the calls of two clients on it. -/
structure Session where
  store : MemoryStore
  call : Client → MergeCall

namespace Session

variable (settings : StoreSettings) (request : Client → MergeRequest)

def start (store : MemoryStore) : Session :=
  ⟨store, fun client => (request client).start settings⟩

def turn (session : Session) (client : Client) : Session :=
  let (call, store) := (request client).step settings (session.call client) session.store
  { store, call := fun other => if other = client then call else session.call other }

def run (session : Session) (turns : List Client) : Session :=
  turns.foldl (turn settings request) session

end Session

end DatasetLineage
