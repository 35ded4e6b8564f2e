import DatasetLineage.Proofs.Store.Writing
import DatasetLineage.Store.Call

/-!
# Calls that are not interrupted

A call that gets every turn makes the checks, the rounds, the plan and the write of a merge,
one access after the other.  So it ends with the result of the merge, and leaves behind the
store that the merge leaves.
-/

namespace DatasetLineage

namespace MergeRequest

variable {settings : StoreSettings} {request : MergeRequest} {store : MemoryStore}

/-- A call comes by itself from one point to another, with the store as it is then. -/
abbrev Proceeds (settings : StoreSettings) (request : MergeRequest) :
    MergeCall × MemoryStore → MergeCall × MemoryStore → Prop :=
  Relation.ReflTransGen fun before after => request.step settings before.1 before.2 = after

def finished : EStateM.Result Failure MemoryStore Diff → MergeCall × MemoryStore
  | .ok diff after => (.ended (.ok diff), after)
  | .error failure after => (.ended (.error failure), after)

def carriedOut (planned : Except Failure Diff) (store : MemoryStore) : MergeCall × MemoryStore :=
  finished (Index.carryOut .writingLineage planned id store)

theorem carriedOut_ok (diff : Diff) (store : MemoryStore) :
    carriedOut (.ok diff) store =
      match Index.write .writingLineage diff store with
      | .ok _ after => (.ended (.ok diff), after)
      | .error failure after => (.ended (.error failure), after) := by
  change finished (EStateM.bind (Index.write .writingLineage diff)
    (fun _ => pure (id diff)) store) = _
  rw [EStateM.bind]
  cases Index.write .writingLineage diff store <;> rfl

theorem proceeds_planned (existing : Collection) :
    Proceeds settings request (request.planned existing, store)
      (carriedOut (Index.plan request.collection existing request.allowUpdates) store) := by
  rw [planned]
  cases Index.plan request.collection existing request.allowUpdates with
  | error failure => exact .refl
  | ok diff =>
      by_cases hempty : diff.isEmpty = true
      · have hwrite : Index.write .writingLineage diff store = .ok () store := by
          rw [Index.write, if_pos hempty]
          rfl
        rw [carriedOut_ok, hwrite]
        simp only [hempty, if_true]
        exact .refl
      · simp only [hempty]
        exact .single (carriedOut_ok diff store).symm

theorem proceeds_fetchNext (state : FetchState) :
    Proceeds settings request (request.fetchNext settings state, store)
      (carriedOut (do
        let existing ← store.fetchClosureFrom settings.maxFetchRounds state
        Index.plan request.collection existing request.allowUpdates) store) := by
  have hstep : ∀ state : FetchState, state.frontier ≠ [] →
      ¬ (settings.maxFetchRounds ≠ 0 ∧ settings.maxFetchRounds ≤ state.rounds) →
        request.fetchNext settings state = .fetching state := by
    intro state hfrontier hlimit
    rw [fetchNext, if_neg hfrontier, if_neg hlimit]
  fun_induction MemoryStore.fetchClosureFrom store settings.maxFetchRounds state with
  | case1 state hdone =>
      rw [fetchNext, if_pos hdone]
      exact proceeds_planned state.collected
  | case2 state hfrontier hlimit =>
      rw [fetchNext, if_neg hfrontier, if_pos hlimit]
      exact .refl
  | case3 state hfrontier hlimit failure hfailed =>
      rw [hstep state hfrontier hlimit]
      apply Relation.ReflTransGen.single
      simp only [step, hfailed]
      rfl
  | case4 state hfrontier hlimit batch hbatch failure hfailed =>
      rw [hstep state hfrontier hlimit]
      apply Relation.ReflTransGen.single
      simp only [step, hbatch, hfailed]
      rfl
  | case5 state hfrontier hlimit batch hbatch next hnext ih =>
      rw [hstep state hfrontier hlimit]
      apply Relation.ReflTransGen.head _ ih
      simp only [step, hbatch, hnext]

theorem requireKnown_cons (store : MemoryStore) (id : DatasetId) (rest : List DatasetId) :
    Index.requireKnown store (id :: rest) =
      if store.holds id then Index.requireKnown store rest
      else .error (.refused (.unknownDataset id)) := by
  rw [Index.requireKnown, Index.requireKnown, List.find?_cons]
  cases store.holds id <;> rfl

theorem proceeds_checkNext (ids : List DatasetId) :
    Proceeds settings request (request.checkNext settings ids, store)
      (carriedOut (do
        Index.requireKnown store ids
        let existing ← store.fetchClosure settings.maxFetchRounds
          (Index.touched request.collection)
        Index.plan request.collection existing request.allowUpdates) store) := by
  induction ids with
  | nil => exact proceeds_fetchNext _
  | cons id rest ih =>
      rw [checkNext, requireKnown_cons]
      cases hheld : store.holds id with
      | true =>
          apply Relation.ReflTransGen.head _ ih
          simp only [step, hheld, if_true]
      | false =>
          apply Relation.ReflTransGen.single
          simp only [step, hheld]
          rfl

/-- A call that is not interrupted does what the merge does. -/
theorem proceeds_merge (settings : StoreSettings) (request : MergeRequest)
    (store : MemoryStore) :
    Proceeds settings request (request.start settings, store)
      (finished (Index.merge settings request.collection request.allowUpdates store)) := by
  rw [Index.merge_eq, Index.prepare, start]
  cases settings.requireKnownDatasets with
  | true => exact proceeds_checkNext (Index.touched request.collection)
  | false => exact proceeds_checkNext []

end MergeRequest

end DatasetLineage
