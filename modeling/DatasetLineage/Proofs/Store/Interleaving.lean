import DatasetLineage.Proofs.Store.Guarding

/-!
# Two clients of one store

Two clients merge into one store, and their accesses to it come in any order.  Neither of
them closes a cycle with the lineage that was stored when it began to fetch, so a call that
begins after the other one has ended is safe.  If the calls overlap, neither of them has to
see what the other is about to write, and the store takes both: a cycle that runs over edges
of both clients is stored.
-/

namespace DatasetLineage

theorem Client.eq_or_eq {left right : Client} (hother : left ≠ right) (client : Client) :
    client = left ∨ client = right := by
  cases left <;> cases right <;> cases client <;> simp at hother ⊢

namespace Session

variable {settings : StoreSettings} {request : Client → MergeRequest} {session : Session}
  {base : Set Edge} {client other : Client}

section Turn

variable (settings request session client)

theorem turn_call_self :
    (session.turn settings request client).call client =
      ((request client).step settings (session.call client) session.store).1 := if_pos rfl

variable {client} in
theorem turn_call_of_ne (hother : other ≠ client) :
    (session.turn settings request client).call other = session.call other := if_neg hother

end Turn

/-- An ended call gets its turn in vain. -/
theorem turn_of_ended (hended : (session.call client).Ended) :
    session.turn settings request client = session := by
  have hstep : (request client).step settings (session.call client) session.store =
      (session.call client, session.store) := by
    cases hcall : session.call client with
    | ended result => rfl
    | checking id rest | fetching state | writing diff =>
        rw [hcall] at hended
        exact hended.elim
  have hcalls : (fun other => if other = client then session.call client
      else session.call other) = session.call := by
    funext other
    by_cases hother : other = client
    · rw [if_pos hother, hother]
    · rw [if_neg hother]
  rw [turn, hstep]
  exact congrArg (Session.mk session.store) hcalls

theorem run_append (session : Session) (before rest : List Client) :
    session.run settings request (before ++ rest) =
      (session.run settings request before).run settings request rest :=
  List.foldl_append

theorem run_call_of_ended (hended : (session.call other).Ended) (turns : List Client) :
    (session.run settings request turns).call other = session.call other := by
  induction turns generalizing session with
  | nil => rfl
  | cons client turns ih =>
      change ((session.turn settings request client).run settings request turns).call other = _
      have hkept : (session.turn settings request client).call other = session.call other := by
        by_cases hother : other = client
        · rw [← hother, turn_of_ended hended]
        · exact turn_call_of_ne settings request session hother
      rw [← hkept]
      apply ih
      rw [hkept]
      exact hended

/-- The edges that have been added by calls which have ended. -/
def added (session : Session) : Set Edge :=
  {edge | ∃ client, edge ∈ (session.call client).added}

theorem added_eq (session : Session) :
    session.added = (session.call .first).added ∪ (session.call .second).added := by
  ext edge
  constructor
  · intro ⟨client, hedge⟩
    cases client with
    | first => exact .inl hedge
    | second => exact .inr hedge
  · intro hedge
    cases hedge with
    | inl hfirst => exact ⟨.first, hfirst⟩
    | inr hsecond => exact ⟨.second, hsecond⟩

theorem added_turn (hnothing : (session.call client).added = ∅) :
    (session.turn settings request client).added =
      session.added ∪ ((session.turn settings request client).call client).added := by
  ext edge
  constructor
  · intro ⟨other, hedge⟩
    by_cases hother : other = client
    · rw [hother] at hedge
      exact .inr hedge
    · rw [turn_call_of_ne settings request session hother] at hedge
      exact .inl ⟨other, hedge⟩
  · intro hedge
    cases hedge with
    | inr hnew => exact ⟨client, hnew⟩
    | inl hold =>
        obtain ⟨other, hold⟩ := hold
        have hother : other ≠ client := by
          intro hsame
          rw [hsame, hnothing] at hold
          exact hold
        refine ⟨other, ?_⟩
        rw [turn_call_of_ne settings request session hother]
        exact hold

/-- To some edges only what the calls have added is added in the store, and each call closes
no cycle with them. -/
structure Tracked (request : Client → MergeRequest) (base : Set Edge) (session : Session) :
    Prop where
  edges_eq : session.store.edges = base ∪ session.added
  guarded : ∀ client, Guarded base (Index.touched (request client).collection)
    (session.call client)

theorem Tracked.base_subset (htracked : Tracked request base session) :
    base ⊆ session.store.edges := by
  rw [htracked.edges_eq]
  exact Set.subset_union_left

theorem Tracked.added_subset (htracked : Tracked request base session) :
    session.added ⊆ session.store.edges := by
  rw [htracked.edges_eq]
  exact Set.subset_union_right

section Tracked

variable (hacyclic : Acyclic base) (hbuilt : ∀ client, (request client).collection.Built)
include hacyclic hbuilt

theorem Tracked.turn (htracked : Tracked request base session) (client : Client) :
    Tracked request base (session.turn settings request client) := by
  cases step_cases settings (request client) (session.call client) session.store with
  | inl hended =>
      rw [turn_of_ended hended.1]
      exact htracked
  | inr hstep =>
      constructor
      · rw [added_turn hstep.1, ← Set.union_assoc, ← htracked.edges_eq, turn_call_self]
        exact hstep.2
      · intro other
        by_cases hother : other = client
        · rw [hother, turn_call_self]
          exact (htracked.guarded client).step hacyclic (hbuilt client) htracked.base_subset
        · rw [turn_call_of_ne settings request session hother]
          exact htracked.guarded other

theorem Tracked.run (htracked : Tracked request base session) (turns : List Client) :
    Tracked request base (session.run settings request turns) := by
  induction turns generalizing session with
  | nil => exact htracked
  | cons client turns ih => exact ih (htracked.turn hacyclic hbuilt client)

end Tracked

theorem tracked_start {store : MemoryStore} (hacyclic : Acyclic store.edges)
    (hbuilt : ∀ client, (request client).collection.Built) :
    Tracked request store.edges (start settings request store) where
  edges_eq := by
    have hnothing : ∀ client, ((start settings request store).call client).added = ∅ :=
      fun client => added_checkNext settings (request client) _
    rw [added_eq, hnothing, hnothing, Set.union_self, Set.union_empty]
    rfl
  guarded := fun client => guarded_checkNext hacyclic (hbuilt client) _

/-- Once one call has ended and the other one has not fetched yet, the edges that are stored
by then do as first edges. -/
theorem Tracked.again (htracked : Tracked request base session) (hacyclic : Acyclic base)
    {early late : Client} (hother : early ≠ late) (hended : (session.call early).Ended)
    (hbefore : (session.call late).BeforeFetch) :
    Acyclic session.store.edges ∧ Tracked request session.store.edges session := by
  have hadded : session.added = (session.call early).added := by
    ext edge
    constructor
    · intro ⟨client, hedge⟩
      cases Client.eq_or_eq hother client with
      | inl hearly => rwa [hearly] at hedge
      | inr hlate =>
          rw [hlate, hbefore.added] at hedge
          exact hedge.elim
    · exact fun hedge => ⟨early, hedge⟩
  have hstored : Acyclic session.store.edges := by
    rw [htracked.edges_eq, hadded]
    exact (htracked.guarded early).acyclic hacyclic
  have hedges : session.store.edges ∪ session.added = session.store.edges :=
    Set.union_eq_left.2 htracked.added_subset
  refine ⟨hstored, hedges.symm, ?_⟩
  intro client
  cases Client.eq_or_eq hother client with
  | inr hlate =>
      rw [hlate]
      exact (htracked.guarded late).of_beforeFetch hbefore
  | inl hearly =>
      rw [hearly]
      apply guarded_of_ended hended
      rw [← hadded, hedges]
      exact hstored

/-- However the calls of two merges alternate, just what they report is added, and neither of
them closes a cycle with what was stored at first.  If one of them does not begin to fetch
before the other one has ended, both together close none. -/
theorem run_two_merges (settings : StoreSettings) (request : Client → MergeRequest)
    (store : MemoryStore) (hacyclic : Acyclic store.edges)
    (hbuilt : ∀ client, (request client).collection.Built) (turns : List Client) :
    let after := (start settings request store).run settings request turns
    after.store.edges =
        store.edges ∪ ((after.call .first).added ∪ (after.call .second).added) ∧
      (∀ client, Acyclic (store.edges ∪ (after.call client).added)) ∧
      ∀ before rest early late, turns = before ++ rest → early ≠ late →
        let middle := (start settings request store).run settings request before
        (middle.call early).Ended → (middle.call late).BeforeFetch →
          Acyclic after.store.edges := by
  have hreached : ∀ turns, Tracked request store.edges
      ((start settings request store).run settings request turns) :=
    (tracked_start hacyclic hbuilt).run hacyclic hbuilt
  refine ⟨?_, fun client => ((hreached turns).guarded client).acyclic hacyclic, ?_⟩
  · rw [← added_eq]
    exact (hreached turns).edges_eq
  · intro before rest early late hturns hother middle hended hbefore
    obtain ⟨hmiddle, htracked⟩ := (hreached before).again hacyclic hother hended hbefore
    have hafter : Tracked request middle.store.edges (middle.run settings request rest) :=
      htracked.run hmiddle hbuilt rest
    have hstored : (middle.run settings request rest).store.edges ⊆
        middle.store.edges ∪ ((middle.run settings request rest).call late).added := by
      rw [hafter.edges_eq]
      apply Set.union_subset Set.subset_union_left
      intro edge ⟨client, hedge⟩
      cases Client.eq_or_eq hother client with
      | inr hlate =>
          rw [hlate] at hedge
          exact .inr hedge
      | inl hearly =>
          rw [hearly, run_call_of_ended hended] at hedge
          exact .inl (htracked.added_subset ⟨early, hedge⟩)
    rw [hturns, run_append]
    exact ((hafter.guarded late).acyclic hmiddle).mono hstored

/-- Two clients merge one relation each, and the second one may change classifiers. -/
def oneEach (first second : Relation) : Client → MergeRequest
  | .first => ⟨Collection.empty.insertRelation first, false⟩
  | .second => ⟨Collection.empty.insertRelation second, true⟩

theorem built_oneEach {first second : Relation} (hfirst : first.source ≠ first.derived)
    (hsecond : second.source ≠ second.derived) (client : Client) :
    (oneEach first second client).collection.Built := by
  have hsingle : ∀ relation : Relation, relation.source ≠ relation.derived →
      (Collection.empty.insertRelation relation).Built := by
    intro relation hends
    apply Collection.Built.change (.relation relation) .empty
    change Collection.empty.afterMerging (Collection.mergeRelation relation) = _
    rw [Collection.afterMerging, Collection.mergeRelation, if_neg hends]
    rfl
  cases client with
  | first => exact hsingle first hfirst
  | second => exact hsingle second hsecond

theorem acyclic_edges_empty : Acyclic (MemoryStore.edges {}) := by
  rw [MemoryStore.edges, edgesOf_nil]
  exact acyclic_empty

/-- Two merges into an empty store, one after the other. -/
theorem run_two_merges_in_a_row :
    let request := oneEach ⟨"nbar", .numbered 1, .numbered 2⟩ ⟨"bias", .numbered 2, .numbered 3⟩
    let after := (start {} request {}).run {} request [.first, .first, .second, .second, .second]
    after.store.relations =
        [⟨"nbar", .numbered 1, .numbered 2⟩, ⟨"bias", .numbered 2, .numbered 3⟩] ∧
      Acyclic after.store.edges := by
  intro request
  have hbuilt := @built_oneEach ⟨"nbar", .numbered 1, .numbered 2⟩
    ⟨"bias", .numbered 2, .numbered 3⟩ (by decide) (by decide)
  have hended : (((start {} request {}).run {} request [.first, .first]).call .first).Ended := by
    decide +kernel
  have hbefore : (((start {} request {}).run {} request [.first, .first]).call
      .second).BeforeFetch := by decide +kernel
  have hruns := run_two_merges {} request {} acyclic_edges_empty hbuilt
    [.first, .first, .second, .second, .second]
  have hserial := hruns.2.2 [.first, .first] [.second, .second, .second] .first .second rfl
    (by decide) hended hbefore
  exact ⟨by decide +kernel, hserial⟩

/-- Two merges into an empty store that overlap.  Each of them has fetched before the other one
writes, and their relations lead in opposite directions. -/
theorem run_two_merges_stores_cycle :
    let request := oneEach ⟨"nbar", .numbered 1, .numbered 2⟩ ⟨"bias", .numbered 2, .numbered 1⟩
    let after := (start {} request {}).run {} request [.first, .second, .first, .second]
    Acyclic (MemoryStore.edges {}) ∧ (∀ client, (request client).collection.Built) ∧
      (∀ client, (after.call client).Ended) ∧
      after.store.relations =
        [⟨"nbar", .numbered 1, .numbered 2⟩, ⟨"bias", .numbered 2, .numbered 1⟩] ∧
      ¬ Acyclic after.store.edges := by
  intro request
  let stored : List Relation :=
    [⟨"nbar", .numbered 1, .numbered 2⟩, ⟨"bias", .numbered 2, .numbered 1⟩]
  have hended : ∀ client, (((start {} request {}).run {} request
      [.first, .second, .first, .second]).call client).Ended := by
    intro client
    cases client with
    | first => decide +kernel
    | second => decide +kernel
  have hrelations : ((start {} request {}).run {} request
      [.first, .second, .first, .second]).store.relations = stored := by decide +kernel
  refine ⟨acyclic_edges_empty, built_oneEach (by decide) (by decide), hended, hrelations, ?_⟩
  rw [MemoryStore.edges, hrelations]
  intro hacyclic
  have hforth : Leads (edgesOf stored) .derived (.numbered 1) (.numbered 2) :=
    ⟨_, List.mem_cons_self, rfl⟩
  have hback : Leads (edgesOf stored) .derived (.numbered 2) (.numbered 1) :=
    ⟨_, List.mem_cons_of_mem _ List.mem_cons_self, rfl⟩
  exact hacyclic (.numbered 1) (.tail (.single hforth) hback)

end Session

end DatasetLineage
