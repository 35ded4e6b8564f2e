import DatasetLineage.Store.Memory

/-!
# Fetching stored lineage

Stored lineage is collected in rounds.  Every round fetches the relations that
touch the datasets of a frontier, and what they lead to and was not fetched
before is the next frontier.  A dataset is fetched once, so the rounds end when
the stored lineage around the first frontier is exhausted.
-/

namespace DatasetLineage

/-- How far the collection of stored lineage has come. -/
structure FetchState where
  collected : Collection := Collection.empty
  /-- Datasets whose relations were fetched. -/
  seen : IdSet := OrderedMap.empty
  /-- Datasets whose relations are to be fetched next. -/
  frontier : List DatasetId
  /-- Rounds so far. -/
  rounds : Nat := 0

namespace FetchState

/-- The datasets of a batch that make up the next frontier: those that are wanted
and were not fetched before. -/
def nextFrontier (seen : IdSet) (wanted : DatasetId → Bool) (batch : Collection) :
    List DatasetId :=
  batch.datasetIds.filter fun id => !seen.contains id && wanted id

/-- Take in the batch that was fetched for the frontier. -/
def advance (state : FetchState) (wanted : DatasetId → Bool) (batch : Collection) :
    Except Failure FetchState :=
  match state.collected.afterMerging (Collection.merge batch) with
  | .error error => .error (.contradiction .collectingStored error)
  | .ok collected =>
      let seen := IdSet.addAll state.seen state.frontier
      .ok
        { collected, seen
          frontier := nextFrontier seen wanted batch
          rounds := state.rounds + 1 }

/-- The datasets of a store that are neither fetched nor about to be. -/
def untouched (state : FetchState) (store : MemoryStore) : List DatasetId :=
  store.endpoints.filter fun id => !(IdSet.addAll state.seen state.frontier).contains id

/-- What a round makes smaller: the datasets not yet touched, and the round
itself. -/
def remaining (state : FetchState) (store : MemoryStore) : Nat :=
  (state.untouched store).length + if state.frontier = [] then 0 else 1

end FetchState

/-! ## What a batch knows -/

namespace Collection

/-- Nothing is known apart from the datasets of some list. -/
def KnownWithin (collection : Collection) (ids : List DatasetId) : Prop :=
  ∀ id, collection.known.contains id = true → id ∈ ids

/-- A change that keeps what is known within some datasets. -/
def StaysWithin (ids : List DatasetId) (change : Merging Unit) : Prop :=
  ∀ collection, collection.KnownWithin ids → ∀ merged,
    change collection = .ok () merged → merged.KnownWithin ids

theorem staysWithin_forM {α : Type} {ids : List DatasetId} {step : α → Merging Unit}
    {values : List α} (hstep : ∀ value ∈ values, StaysWithin ids (step value)) :
    StaysWithin ids (values.forM step) := by
  induction values with
  | nil =>
      intro collection hknown merged hmerged
      cases hmerged
      exact hknown
  | cons value rest ih =>
      intro collection hknown merged hmerged
      change EStateM.bind (step value) (fun _ => rest.forM step) collection = _ at hmerged
      rw [EStateM.bind] at hmerged
      split at hmerged
      · next middle hmiddle =>
          exact ih (fun other hother => hstep other (List.mem_cons_of_mem _ hother)) middle
            (hstep value List.mem_cons_self collection hknown middle hmiddle) merged hmerged
      · cases hmerged

theorem staysWithin_mergeHome? (ids : List DatasetId) (id : DatasetId)
    (home : Option String) : StaysWithin ids (mergeHome? id home) := by
  intro collection hknown merged hmerged
  cases home with
  | none =>
      cases hmerged
      exact hknown
  | some home =>
      simp only [mergeHome?, mergeHome] at hmerged
      split at hmerged
      · split at hmerged
        · cases hmerged
          exact hknown
        · cases hmerged
      · cases hmerged
        exact hknown

theorem check_eq_ok {result : Collection → Except LineageError Unit}
    {collection merged : Collection}
    (hmerged : Merging.check result collection = .ok () merged) : merged = collection := by
  rw [Merging.check] at hmerged
  split at hmerged
  · cases hmerged
    rfl
  · cases hmerged

theorem staysWithin_mergeRelation {ids : List DatasetId} {relation : Relation}
    (hsource : relation.source ∈ ids) (hderived : relation.derived ∈ ids) :
    StaysWithin ids (mergeRelation relation) := by
  intro collection hknown merged hmerged
  have hinserted : (collection.insertRelation relation).KnownWithin ids := by
    intro id hid
    simp only [insertRelation, IdSet.contains_add] at hid
    rcases hid with (hid | rfl) | rfl
    · exact hknown id hid
    · exact hsource
    · exact hderived
  rw [mergeRelation] at hmerged
  split at hmerged
  · cases hmerged
  · split at hmerged
    · split at hmerged
      · cases hmerged
        exact hknown
      · cases hmerged
    · simp only at hmerged
      split at hmerged
      · change EStateM.bind _ _ _ = _ at hmerged
        rw [EStateM.bind] at hmerged
        split at hmerged
        · next middle hmiddle =>
            have hfirst := check_eq_ok hmiddle
            have hsecond := check_eq_ok hmerged
            rw [hsecond, hfirst]
            exact hinserted
        · cases hmerged
      · cases hmerged
        exact hinserted

theorem knownWithin_of_afterMerging {ids : List DatasetId} {change : Merging Unit}
    {collection merged : Collection} (hstays : StaysWithin ids change)
    (hknown : collection.KnownWithin ids)
    (hmerged : collection.afterMerging change = .ok merged) : merged.KnownWithin ids := by
  rw [afterMerging] at hmerged
  split at hmerged
  · next result hresult =>
      cases hmerged
      exact hstays collection hknown _ hresult
  · cases hmerged

end Collection

/-- Rewording the failure of a computation leaves its success alone. -/
theorem ok_of_mapError {α ε ε' : Type} {reword : ε → ε'} {value : α} :
    {result : Except ε α} → result.mapError reword = .ok value → result = .ok value
  | .ok _, heq => congrArg Except.ok (Except.ok.inj heq)
  | .error _, heq => nomatch (show Except.error _ = Except.ok _ from heq)

/-- A fetched collection knows no dataset that is not at the end of a stored
relation. -/
theorem MemoryStore.knownWithin_of_fetch {store : MemoryStore} {ids : List DatasetId}
    {batch : Collection} (hbatch : store.fetch ids = .ok batch) :
    batch.KnownWithin store.endpoints := by
  simp only [MemoryStore.fetch, bind, Except.bind] at hbatch
  split at hbatch
  · cases hbatch
  · next start hstart =>
      refine Collection.knownWithin_of_afterMerging
        (Collection.staysWithin_forM fun relation hrelation => ?_)
        (Collection.knownWithin_of_afterMerging
          (Collection.staysWithin_forM fun id _ =>
            Collection.staysWithin_mergeHome? _ id _)
          (fun id hid => by cases hid) (ok_of_mapError hstart))
        (ok_of_mapError hbatch)
      have hstored := (List.mem_filter.1 hrelation).1
      have hends : ∀ id ∈ [relation.source, relation.derived],
          id ∈ store.endpoints := fun id hid =>
        List.mem_flatMap.2 ⟨relation, hstored, hid⟩
      exact Collection.staysWithin_mergeRelation (hends _ (by simp))
        (hends _ (by simp))

namespace FetchState

/-- A round leaves less to do. -/
theorem remaining_lt {store : MemoryStore} {state next : FetchState}
    {wanted : DatasetId → Bool} {batch : Collection} (hfrontier : state.frontier ≠ [])
    (hbatch : store.fetch state.frontier = .ok batch)
    (hnext : state.advance wanted batch = .ok next) :
    next.remaining store < state.remaining store := by
  have hknown := MemoryStore.knownWithin_of_fetch hbatch
  rw [advance] at hnext
  split at hnext
  · cases hnext
  · next collected _ =>
      cases hnext
      simp only [remaining, untouched]
      rw [if_neg hfrontier]
      generalize IdSet.addAll state.seen state.frontier = seen
      by_cases hempty : nextFrontier seen wanted batch = []
      · rw [hempty, if_pos rfl]
        simp [IdSet.addAll]
      · rw [if_neg hempty]
        obtain ⟨id, hid⟩ := List.exists_mem_of_ne_nil _ hempty
        have hfresh := List.mem_filter.1 hid
        have hstored : id ∈ store.endpoints := by
          refine hknown id (OrderedMap.contains_iff_mem_keys.2 ?_)
          exact hfresh.1
        have hunseen : seen.contains id = false := by
          have := hfresh.2
          simp only [Bool.and_eq_true, Bool.not_eq_true'] at this
          exact this.1
        have hlt : (store.endpoints.filter fun other =>
            !(IdSet.addAll seen (nextFrontier seen wanted batch)).contains other).length <
            (store.endpoints.filter fun other => !seen.contains other).length := by
          have hsplit : (store.endpoints.filter fun other =>
              !(IdSet.addAll seen (nextFrontier seen wanted batch)).contains other) =
              (store.endpoints.filter fun other => !seen.contains other).filter fun other =>
                !(nextFrontier seen wanted batch).contains other := by
            rw [List.filter_filter]
            refine List.filter_congr fun other _ => ?_
            rw [Bool.eq_iff_iff]
            simp [IdSet.contains_addAll, ← Bool.not_eq_true, and_comm]
          rw [hsplit]
          exact List.length_filter_lt_length_iff_exists.2
            ⟨id, List.mem_filter.2 ⟨hstored, by simp [hunseen]⟩, by simpa using hid⟩
        omega

end FetchState

namespace MemoryStore

/-- Collect stored lineage until no dataset is left to fetch, within a limit of
rounds where zero is no limit.  Part of the lineage is never returned: a check
against it would let an edge through that closes a cycle. -/
def fetchClosureFrom (store : MemoryStore) (limit : Nat) (state : FetchState) :
    Except Failure Collection :=
  if state.frontier = [] then .ok state.collected
  else if limit ≠ 0 ∧ limit ≤ state.rounds then .error (.refused (.tooManyRounds limit))
  else
    match _ : store.fetch state.frontier with
    | .error failure => .error failure
    | .ok batch =>
        match _ : state.advance (fun _ => true) batch with
        | .error failure => .error failure
        | .ok next => fetchClosureFrom store limit next
termination_by state.remaining store
decreasing_by exact FetchState.remaining_lt ‹_› ‹_› ‹_›

/-- The stored lineage connected to some datasets, in either direction. -/
def fetchClosure (store : MemoryStore) (limit : Nat) (ids : List DatasetId) :
    Except Failure Collection :=
  store.fetchClosureFrom limit { frontier := ids }

/-- Collect the stored lineage below a frontier, and after the last level the
neighbours of its datasets, by which nodes that were cut off can be told. -/
def fetchDirectedFrom (store : MemoryStore) (direction : Direction) (levels : Levels)
    (state : FetchState) : Except Failure Collection :=
  if state.frontier = [] then .ok state.collected
  else
    match _ : store.fetch state.frontier with
    | .error failure => .error failure
    | .ok batch =>
        let wanted := fun id => state.frontier.any fun parent =>
          (batch.neighbours direction parent).any fun next => next.id = id
        match _ : state.advance wanted batch with
        | .error failure => .error failure
        | .ok next =>
            if levels = some 0 then .ok next.collected
            else fetchDirectedFrom store direction levels.next next
termination_by state.remaining store
decreasing_by exact FetchState.remaining_lt ‹_› ‹_› ‹_›

/-- The stored lineage of a dataset in a direction, down to some levels. -/
def fetchDirected (store : MemoryStore) (direction : Direction) (levels : Levels)
    (root : DatasetId) : Except Failure Collection :=
  store.fetchDirectedFrom direction levels { frontier := [root] }

end MemoryStore

end DatasetLineage
