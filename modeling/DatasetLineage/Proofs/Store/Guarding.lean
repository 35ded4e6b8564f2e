import DatasetLineage.Proofs.Store.Writing
import DatasetLineage.Store.Call

/-!
# What a call is guarded against

Between two rounds of a call others may write to the store, so what it collects need not have
been stored at any one time.  As long as nothing is removed, it charts at least the lineage
that was stored when the call began to fetch: of those edges it misses none around the datasets
it has fetched.  That is enough for its check, and so what a call writes closes no cycle with
the lineage that was stored at its first round.
-/

namespace DatasetLineage

namespace MergeCall

def added : MergeCall → Set Edge
  | .ended (.ok diff) => edgesOf diff.relationsToAdd
  | _ => ∅

def Ended : MergeCall → Prop
  | .ended _ => True
  | _ => False

/-- A call has not fetched any lineage yet. -/
def BeforeFetch : MergeCall → Prop
  | .checking _ _ => True
  | .fetching state => state.seen = OrderedMap.empty
  | _ => False

instance (call : MergeCall) : Decidable call.Ended :=
  match call with
  | .ended _ => .isTrue trivial
  | .checking _ _ | .fetching _ | .writing _ => .isFalse id

instance (call : MergeCall) : Decidable call.BeforeFetch :=
  match call with
  | .checking _ _ => .isTrue trivial
  | .fetching state => inferInstanceAs (Decidable (state.seen = OrderedMap.empty))
  | .writing _ | .ended _ => .isFalse id

theorem BeforeFetch.added {call : MergeCall} (hbefore : call.BeforeFetch) : call.added = ∅ := by
  cases call with
  | checking id rest | fetching state => rfl
  | writing diff | ended result => exact hbefore.elim

end MergeCall

/-! ## What a call has charted -/

/-- What rounds of fetching have come to, as far as some edges are concerned that were stored
all the time.  More may have been stored meanwhile, and may have been fetched or not. -/
structure Charted (edges : Set Edge) (ids : List DatasetId) (state : FetchState) : Prop where
  built : state.collected.Built
  /-- Of the edges that touch a dataset fetched before, none is missing, and both ends are
  fetched or are next. -/
  closed : ∀ edge ∈ edges,
    state.seen.contains edge.source = true ∨ state.seen.contains edge.derived = true →
      edge ∈ state.collected.edges ∧ MemoryStore.Met state edge.source ∧
        MemoryStore.Met state edge.derived
  met : ∀ id ∈ ids, MemoryStore.Met state id

section Charted

variable {edges : Set Edge} {ids : List DatasetId} {state next : FetchState} {store : MemoryStore}

/-- As long as nothing is fetched, nothing is missing of any edges. -/
theorem charted_of_unseen (edges : Set Edge) (hbuilt : state.collected.Built)
    (hseen : state.seen = OrderedMap.empty) (hmet : ∀ id ∈ ids, MemoryStore.Met state id) :
    Charted edges ids state where
  built := hbuilt
  closed := by
    intro edge _ htouched
    rw [hseen] at htouched
    exact absurd htouched (not_or.2 ⟨MemoryStore.not_seen_at_start, MemoryStore.not_seen_at_start⟩)
  met := hmet

/-- A round charts what is stored around its frontier. -/
theorem Charted.advance (hcharted : Charted edges ids state) (hstored : edges ⊆ store.edges)
    {batch : Collection} (hbatch : store.fetch state.frontier = .ok batch)
    (hnext : state.advance (fun _ => true) batch = .ok next) : Charted edges ids next := by
  obtain ⟨hbuilt, hfacts⟩ := MemoryStore.facts_of_advance hcharted.built hbatch hnext
  have hedges : next.collected.edges = state.collected.edges ∪ batch.edges := by
    rw [← Collection.edgesAmong_facts, hfacts, Fact.edgesAmong_union,
      Collection.edgesAmong_facts, Collection.edgesAmong_facts]
  constructor
  · exact hbuilt
  · intro edge hedge htouched
    obtain ⟨relation, hrelation, rfl⟩ := hstored hedge
    rw [hedges]
    cases MemoryStore.touched_of_advance hnext htouched with
    | inl hold =>
        obtain ⟨hcollected, hsource, hderived⟩ := hcharted.closed _ hedge hold
        exact ⟨.inl hcollected, hsource.advance hnext, hderived.advance hnext⟩
    | inr hnew =>
        have hmem := ((MemoryStore.fetched_of_fetch hbatch).mem_relations relation).2
          ⟨hrelation, hnew⟩
        exact ⟨.inr (Relation.edge_mem_edgesOf hmem),
          MemoryStore.met_ends_of_advance hbatch hnext hmem⟩
  · exact fun id hid => (hcharted.met id hid).advance hnext

/-- What is planned from a chart without a frontier closes no cycle with the charted edges. -/
theorem Charted.acyclic_of_plan {collection : Collection} {allowUpdates : Bool} {diff : Diff}
    (hcharted : Charted edges (Index.touched collection) state) (hdone : state.frontier = [])
    (hacyclic : Acyclic edges) (hbuilt : collection.Built)
    (hplan : Index.plan collection state.collected allowUpdates = .ok diff) :
    Acyclic (edges ∪ edgesOf diff.relationsToAdd) := by
  have hseen : ∀ {id}, MemoryStore.Met state id → state.seen.contains id = true := by
    intro id hmet
    rw [MemoryStore.Met, hdone] at hmet
    exact hmet.resolve_right List.not_mem_nil
  have henclosed : Enclosed edges (edges ∩ state.collected.edges)
      {id | state.seen.contains id = true} := by
    constructor
    · exact Set.inter_subset_left
    · intro edge hedge htouched
      obtain ⟨hcollected, hsource, hderived⟩ := hcharted.closed edge hedge htouched
      exact ⟨⟨hedge, hcollected⟩, hseen hsource, hseen hderived⟩
  -- The rounds began with every dataset that the collection knows.
  exact Index.acyclic_of_enclosed hcharted.built.sound (.of_built hbuilt) hplan henclosed
    Set.inter_subset_right (fun id hid => hseen (hcharted.met id hid)) hacyclic

end Charted

/-! ## One step of a call -/

section Step

variable {settings : StoreSettings} {request : MergeRequest} {edges : Set Edge}
  {call : MergeCall} {store : MemoryStore}

/-- Whatever a call writes or has written closes no cycle with some edges. -/
def Guarded (edges : Set Edge) (ids : List DatasetId) : MergeCall → Prop
  | .checking _ _ => True
  | .fetching state => Charted edges ids state
  | .writing diff => Acyclic (edges ∪ edgesOf diff.relationsToAdd)
  | .ended (.ok diff) => Acyclic (edges ∪ edgesOf diff.relationsToAdd)
  | .ended (.error _) => True

/-- A call that has not fetched yet is guarded against any edges. -/
theorem Guarded.of_beforeFetch {more : Set Edge} {ids : List DatasetId}
    (hguarded : Guarded edges ids call) (hbefore : call.BeforeFetch) : Guarded more ids call := by
  cases call with
  | checking id rest => trivial
  | fetching state => exact charted_of_unseen more hguarded.built hbefore hguarded.met
  | writing diff | ended result => exact hbefore.elim

theorem guarded_of_ended {ids : List DatasetId} (hended : call.Ended)
    (hacyclic : Acyclic (edges ∪ call.added)) : Guarded edges ids call := by
  cases call with
  | checking id rest | fetching state | writing diff => exact hended.elim
  | ended result =>
      cases result with
      | ok diff => exact hacyclic
      | error failure => trivial

variable (hacyclic : Acyclic edges) (hbuilt : request.collection.Built)
include hacyclic

theorem Guarded.acyclic {ids : List DatasetId} (hguarded : Guarded edges ids call) :
    Acyclic (edges ∪ call.added) := by
  have hnothing : Acyclic (edges ∪ ∅) := by
    rw [Set.union_empty]
    exact hacyclic
  cases call with
  | checking id rest => exact hnothing
  | fetching state => exact hnothing
  | writing diff => exact hnothing
  | ended result =>
      cases result with
      | ok diff => exact hguarded
      | error failure => exact hnothing

include hbuilt

theorem guarded_fetchNext {state : FetchState}
    (hcharted : Charted edges (Index.touched request.collection) state) :
    Guarded edges (Index.touched request.collection) (request.fetchNext settings state) := by
  rw [MergeRequest.fetchNext]
  by_cases hdone : state.frontier = []
  · rw [if_pos hdone, MergeRequest.planned]
    cases hplan : Index.plan request.collection state.collected request.allowUpdates with
    | error failure => trivial
    | ok diff =>
        have hplanned := hcharted.acyclic_of_plan hdone hacyclic hbuilt hplan
        simp only
        cases diff.isEmpty with
        | true => exact hplanned
        | false => exact hplanned
  · rw [if_neg hdone]
    by_cases hlimit : settings.maxFetchRounds ≠ 0 ∧ settings.maxFetchRounds ≤ state.rounds
    · rw [if_pos hlimit]
      trivial
    · rw [if_neg hlimit]
      exact hcharted

theorem guarded_checkNext (ids : List DatasetId) :
    Guarded edges (Index.touched request.collection) (request.checkNext settings ids) := by
  cases ids with
  | nil =>
      apply guarded_fetchNext hacyclic hbuilt
      exact charted_of_unseen edges .empty rfl fun id hid => .inr hid
  | cons id rest => trivial

/-- A step keeps a call guarded against edges that are stored. -/
theorem Guarded.step (hguarded : Guarded edges (Index.touched request.collection) call)
    (hstored : edges ⊆ store.edges) :
    Guarded edges (Index.touched request.collection)
      (request.step settings call store).1 := by
  cases call with
  | checking id rest =>
      rw [MergeRequest.step]
      by_cases hheld : store.holds id = true
      · rw [if_pos hheld]
        exact guarded_checkNext hacyclic hbuilt rest
      · rw [if_neg hheld]
        trivial
  | fetching state =>
      rw [MergeRequest.step]
      cases hbatch : store.fetch state.frontier with
      | error failure => trivial
      | ok batch =>
          simp only
          cases hnext : state.advance (fun _ => true) batch with
          | error failure => trivial
          | ok next =>
              exact guarded_fetchNext hacyclic hbuilt (hguarded.advance hstored hbatch hnext)
  | writing diff =>
      rw [MergeRequest.step]
      cases Index.write .writingLineage diff store with
      | ok _ after => exact hguarded
      | error failure after => trivial
  | ended result => exact hguarded

end Step

/-! ## What a step adds -/

section Added

variable (settings : StoreSettings) (request : MergeRequest)

theorem added_planned (existing : Collection) : (request.planned existing).added = ∅ := by
  rw [MergeRequest.planned]
  cases Index.plan request.collection existing request.allowUpdates with
  | error failure => rfl
  | ok diff =>
      by_cases hempty : diff.isEmpty = true
      · have hnone : diff.relationsToAdd = [] := by
          simp only [Diff.isEmpty, Bool.and_eq_true, List.isEmpty_iff] at hempty
          exact hempty.1.1.1
        simp only [hempty, if_true, MergeCall.added, hnone, edgesOf_nil]
      · simp only [hempty]
        rfl

theorem added_fetchNext (state : FetchState) : (request.fetchNext settings state).added = ∅ := by
  rw [MergeRequest.fetchNext]
  by_cases hdone : state.frontier = []
  · rw [if_pos hdone]
    exact added_planned request state.collected
  · rw [if_neg hdone]
    by_cases hlimit : settings.maxFetchRounds ≠ 0 ∧ settings.maxFetchRounds ≤ state.rounds
    · rw [if_pos hlimit]
      rfl
    · rw [if_neg hlimit]
      rfl

theorem added_checkNext (ids : List DatasetId) : (request.checkNext settings ids).added = ∅ := by
  cases ids with
  | nil => exact added_fetchNext settings request _
  | cons id rest => rfl

/-- A call that has ended does nothing more, and one that has not stores what it reports. -/
theorem step_cases (call : MergeCall) (store : MemoryStore) :
    (call.Ended ∧ request.step settings call store = (call, store)) ∨
      call.added = ∅ ∧ (request.step settings call store).2.edges =
        store.edges ∪ (request.step settings call store).1.added := by
  have hunchanged : ∀ after : MergeCall, after.added = ∅ →
      store.edges = store.edges ∪ after.added := by
    intro after hnothing
    rw [hnothing, Set.union_empty]
  cases call with
  | checking id rest =>
      right
      rw [MergeRequest.step]
      by_cases hheld : store.holds id = true
      · rw [if_pos hheld]
        exact ⟨rfl, hunchanged _ (added_checkNext settings request rest)⟩
      · rw [if_neg hheld]
        exact ⟨rfl, hunchanged _ rfl⟩
  | fetching state =>
      right
      rw [MergeRequest.step]
      cases store.fetch state.frontier with
      | error failure => exact ⟨rfl, hunchanged _ rfl⟩
      | ok batch =>
          simp only
          cases state.advance (fun _ => true) batch with
          | error failure => exact ⟨rfl, hunchanged _ rfl⟩
          | ok next => exact ⟨rfl, hunchanged _ (added_fetchNext settings request next)⟩
  | writing diff =>
      right
      rw [MergeRequest.step]
      rcases Index.write_cases .writingLineage diff store with hwritten | ⟨failure, hfailed⟩
      · rw [hwritten]
        exact ⟨rfl, MemoryStore.edges_written store diff⟩
      · rw [hfailed]
        exact ⟨rfl, hunchanged _ rfl⟩
  | ended result => exact .inl ⟨trivial, rfl⟩

end Added

end DatasetLineage
