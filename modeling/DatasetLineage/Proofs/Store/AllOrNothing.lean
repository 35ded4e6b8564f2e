import DatasetLineage.Proofs.Store.History

/-!
# All or nothing

A call that fails leaves the store as it was, and a call that succeeds has written all that it
planned.  No call is refused when it writes, since every plan fits the store it was made for.
That takes positions in step, but no acyclic lineage.  So it holds as well of the stores that
come from merging what a failed merge has left behind.
-/

namespace DatasetLineage

namespace MemoryStore

theorem written_of_totalRecords {store : MemoryStore} {diff : Diff}
    (hnothing : diff.totalRecords = 0) : store.written diff = store := by
  apply written_of_isEmpty
  simp only [Diff.totalRecords, Diff.added, Diff.updated, Nat.add_eq_zero_iff,
    OrderedMap.size, List.length_eq_zero_iff] at hnothing
  obtain ⟨⟨hadded, hhomesAdded⟩, hupdated, hhomesUpdated⟩ := hnothing
  simp [Diff.isEmpty, OrderedMap.isEmpty, hadded, hhomesAdded, hupdated, hhomesUpdated]

end MemoryStore

namespace Index

variable {store : MemoryStore} {diff : Diff}

/-- An action that carries out a plan as a whole or not at all.  It fails only for lack of a
plan, and then nothing is changed.  Whatever is planned passes the checks of the store, is
written, and is reported on; if there is nothing to write, nothing is changed. -/
structure AllOrNothing {α : Type} (store : MemoryStore) (planned : Except Failure Diff)
    (report : Diff → α) (action : StoreAction α) : Prop where
  failed : ∀ failure after, action store = .error failure after →
    planned = .error failure ∧ after = store
  succeeded : ∀ result after, action store = .ok result after →
    ∃ diff, planned = .ok diff ∧ result = report diff ∧ (diff.isEmpty = true → after = store)
  written : ∀ diff, planned = .ok diff →
    store.Fits diff ∧ MemoryStore.apply diff store = .ok () (store.written diff) ∧
      action store = .ok (report diff) (store.written diff)

theorem allOrNothing_of_eq {α : Type} {activity : Activity} {planned : Except Failure Diff}
    {report : Diff → α} {action : StoreAction α} (hindexed : store.Indexed)
    (hwritable : ∀ diff, planned = .ok diff → store.Writable diff)
    (haction : action store = carryOut activity planned report store) :
    AllOrNothing store planned report action := by
  constructor
  · intro failure after hresult
    rw [haction] at hresult
    exact (carryOut_eq_error_iff hindexed hwritable).1 hresult
  · intro result after hresult
    rw [haction] at hresult
    obtain ⟨diff, hplanned, hreport, rfl⟩ := (carryOut_eq_ok_iff hindexed hwritable).1 hresult
    exact ⟨diff, hplanned, hreport, MemoryStore.written_of_isEmpty⟩
  · intro diff hplanned
    have hfits := (hwritable diff hplanned).toFits
    refine ⟨hfits, ?_, ?_⟩
    · rw [MemoryStore.apply_eq, hindexed.obstacle?_eq_none_iff.2 hfits]
    · rw [haction, carryOut_of_ok hindexed (hwritable diff hplanned) hplanned]

/-- An operation that fails changes nothing.  Whatever has happened to a store before, and
under any settings, adding a tree, merging a collection and recording homes either fail to
make a plan and leave the store as it was, or write the whole plan, which is never refused.  A
plan without records changes nothing. -/
theorem Visited.all_or_nothing (hvisited : Visited store) (settings : StoreSettings) :
    (∀ tree bound allowUpdates,
      AllOrNothing store (prepareTree settings tree bound allowUpdates store) id
        (add settings tree bound allowUpdates)) ∧
      (∀ collection allowUpdates, Collection.Kept collection →
        AllOrNothing store (prepare settings collection allowUpdates store) id
          (Index.merge settings collection allowUpdates)) ∧
      ∀ home ids allowUpdates,
        AllOrNothing store (prepareHomes settings home ids allowUpdates store)
          Diff.totalRecords (setHome settings home ids allowUpdates) ∧
        ∀ after, setHome settings home ids allowUpdates store = .ok 0 after → after = store := by
  have hindexed := hvisited.indexed
  refine ⟨?_, ?_, ?_⟩
  · intro tree bound allowUpdates
    exact allOrNothing_of_eq hindexed (fun _ => writable_of_prepareTree)
      (add_eq settings tree bound allowUpdates store)
  · intro collection allowUpdates hkept
    exact allOrNothing_of_eq hindexed (fun _ => writable_of_prepare hkept.lockstep)
      (merge_eq settings collection allowUpdates store)
  · intro home ids allowUpdates
    have hwhole := allOrNothing_of_eq hindexed (fun _ => writable_of_prepareHomes)
      (setHome_eq settings home ids allowUpdates store)
    refine ⟨hwhole, ?_⟩
    intro after hresult
    obtain ⟨diff, hplanned, hreport, _⟩ := hwhole.succeeded 0 after hresult
    obtain ⟨_, _, hwritten⟩ := hwhole.written diff hplanned
    rw [hresult] at hwritten
    injection hwritten with _ hafter
    rw [hafter]
    exact MemoryStore.written_of_totalRecords hreport.symm

/-- A relation to a dataset that is not known, and a home for a dataset that has another. -/
theorem all_or_nothing_of_refusals :
    ∃ store collection refused kept diff, Visited store ∧ collection.Kept ∧
      store.relations = [⟨"nbar", .numbered 1, .numbered 2⟩] ∧
      collection.relations = [⟨"bias", .numbered 2, .numbered 3⟩] ∧
      merge { requireKnownDatasets := true } collection true store =
        .error (.refused (.unknownDataset (.numbered 3))) refused ∧ refused = store ∧
      setHome {} "de" [.numbered 1] false store = .ok 0 kept ∧ kept = store ∧
      diff.homesToUpdate.entries = [(.numbered 1, "de")] ∧ store.Fits diff ∧
      setHome {} "de" [.numbered 1] true store = .ok 1 (store.written diff) := by
  let seed : Snapshot :=
    { homes := .ofList [(.numbered 1, "ga")]
      relations := [⟨"nbar", .numbered 1, .numbered 2⟩] }
  have hvisited : Visited _ := .seeded seed rfl
  have hkept : Collection.Kept
      (Collection.empty.insertRelation ⟨"bias", .numbered 2, .numbered 3⟩) :=
    .change (.relation ⟨"bias", .numbered 2, .numbered 3⟩) .empty
  obtain ⟨_, hmerge, _⟩ := hvisited.all_or_nothing { requireKnownDatasets := true }
  obtain ⟨_, _, hhomes⟩ := hvisited.all_or_nothing {}
  obtain ⟨hfits, _, hwritten⟩ := (hhomes "de" [.numbered 1] true).1.written _ rfl
  refine ⟨_, _, _, _, _, hvisited, hkept, rfl, rfl, rfl, ?_, rfl, ?_, rfl, hfits, hwritten⟩
  · exact ((hmerge _ true hkept).failed _ _ rfl).2
  · exact (hhomes "de" [.numbered 1] false).2 _ rfl

end Index

end DatasetLineage
