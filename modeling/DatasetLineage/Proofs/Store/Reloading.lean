import DatasetLineage.Proofs.Store.Override

/-!
# Stores that are reloaded

A store is kept as its snapshot, which does not have the set of its datasets: a store that is
reloaded knows the datasets that its homes and relations mention.  Only the requirement of known
datasets looks at that set.  Where it is made, a tree adds no dataset that is not known, so a
store that knows just what it mentions goes on to do so.  Where it is not made, the set makes no
difference.  Either way a reloaded store takes a tree as the store itself does.
-/

namespace DatasetLineage

namespace MemoryStore

variable {store : MemoryStore} {datasets : IdSet}

theorem mem_mentioned {id : DatasetId} :
    store.mentioned.contains id = true ↔ store.homes.contains id = true ∨ id ∈ store.endpoints := by
  rw [mentioned, IdSet.contains_addAll, IdSet.ofList, IdSet.contains_addAll,
    OrderedMap.contains_iff_mem_keys, OrderedMap.contains_iff_mem_keys]
  simp [endpoints, OrderedMap.keys, OrderedMap.empty]

/-- The set of datasets has no part in what is fetched. -/
theorem fetchClosureFrom_withDatasets (limit : Nat) (state : FetchState) :
    (store.withDatasets datasets).fetchClosureFrom limit state =
      store.fetchClosureFrom limit state := by
  fun_induction fetchClosureFrom store limit state with
  | case1 state hdone => exact fetchClosureFrom_of_done hdone
  | case2 state hfrontier hlimit => rw [fetchClosureFrom, if_neg hfrontier, if_pos hlimit]
  | case3 state hfrontier hlimit failure hfailed =>
      exact fetchClosureFrom_of_failed_fetch hfrontier hlimit hfailed
  | case4 state hfrontier hlimit batch hbatch failure hfailed =>
      exact fetchClosureFrom_of_failed_advance hfrontier hlimit hbatch hfailed
  | case5 state hfrontier hlimit batch hbatch next hnext ih =>
      rw [← ih]
      exact fetchClosureFrom_of_advance hfrontier hlimit hbatch hnext

theorem written_withDatasets (store : MemoryStore) (datasets : IdSet) (diff : Diff) :
    (store.withDatasets datasets).written diff = (store.written diff).withDatasets datasets := by
  have happend : ∀ store relation, (withDatasets store datasets).appendRelation relation =
      (store.appendRelation relation).withDatasets datasets := fun _ _ => rfl
  have hrelabel : ∀ store relation, (withDatasets store datasets).relabel relation =
      (store.relabel relation).withDatasets datasets := by
    intro store relation
    have hpositions : (withDatasets store datasets).positions = store.positions := rfl
    rw [relabel, relabel, hpositions]
    cases store.positions.get? relation.edge <;> rfl
  rw [written, written, List.foldl_hom (withDatasets · datasets) happend,
    List.foldl_hom (withDatasets · datasets) hrelabel]
  rfl

theorem datasets_written (store : MemoryStore) (diff : Diff) :
    (store.written diff).datasets = store.datasets := by
  have hsame : store.written diff = (store.written diff).withDatasets store.datasets :=
    written_withDatasets store store.datasets diff
  rw [hsame]
  rfl

theorem mem_endpoints {id : DatasetId} :
    id ∈ store.endpoints ↔ ∃ edge ∈ store.edges, id = edge.source ∨ id = edge.derived := by
  simp only [endpoints, endpointsOf, List.mem_flatMap, List.mem_cons, List.not_mem_nil, or_false,
    edges, mem_edgesOf]
  constructor
  · rintro ⟨relation, hmem, hend⟩
    exact ⟨relation.edge, ⟨relation, hmem, rfl⟩, hend⟩
  · rintro ⟨_, ⟨relation, hmem, rfl⟩, hend⟩
    exact ⟨relation, hmem, hend⟩

end MemoryStore

namespace Index

variable {settings : StoreSettings} {store after : MemoryStore} {datasets : IdSet} {tree : Tree}
  {bound : Nat} {allowUpdates : Bool} {diff : Diff}

/-! ## Another set of datasets -/

/-- A set of datasets that makes no difference to a plan. -/
def Interchangeable (settings : StoreSettings) (store : MemoryStore) (datasets : IdSet) : Prop :=
  settings.requireKnownDatasets = true → datasets = store.datasets

theorem prepare_withDatasets (hdatasets : Interchangeable settings store datasets)
    (collection : Collection) (allowUpdates : Bool) :
    prepare settings collection allowUpdates (store.withDatasets datasets) =
      prepare settings collection allowUpdates store := by
  cases hdemanded : settings.requireKnownDatasets with
  | true =>
      rw [hdatasets hdemanded]
      rfl
  | false =>
      rw [prepare, prepare, hdemanded, MemoryStore.fetchClosure, MemoryStore.fetchClosure,
        MemoryStore.fetchClosureFrom_withDatasets]
      rfl

/-- A tree is added in the same way whatever datasets are known, unless they have to be. -/
theorem add_withDatasets (hindexed : store.Indexed)
    (hdatasets : Interchangeable settings store datasets)
    (hadded : add settings tree bound allowUpdates store = .ok diff after) :
    add settings tree bound allowUpdates (store.withDatasets datasets) =
      .ok diff (after.withDatasets datasets) := by
  have hindexedOther : (store.withDatasets datasets).Indexed := hindexed.of_eq rfl rfl
  obtain ⟨hprepared, rfl⟩ := (add_eq_ok_iff hindexed).1 hadded
  refine (add_eq_ok_iff hindexedOther).2 ⟨?_, (store.written_withDatasets datasets diff).symm⟩
  rw [← hprepared, prepareTree, prepareTree]
  simp only [prepare_withDatasets hdatasets]

theorem datasets_of_add (hindexed : store.Indexed)
    (hadded : add settings tree bound allowUpdates store = .ok diff after) :
    after.datasets = store.datasets := by
  obtain ⟨_, rfl⟩ := (add_eq_ok_iff hindexed).1 hadded
  exact store.datasets_written diff

/-! ## Known datasets -/

theorem holds_of_requireKnown {ids : List DatasetId} (hresult : requireKnown store ids = .ok ())
    {id : DatasetId} (hid : id ∈ ids) : store.holds id = true := by
  rw [requireKnown] at hresult
  split at hresult
  · cases hresult
  · next hnone => simpa using List.find?_eq_none.1 hnone id hid

/-- Where datasets have to be known, a plan is about datasets that are. -/
theorem holds_of_prepare {collection : Collection}
    (hdemanded : settings.requireKnownDatasets = true)
    (hresult : prepare settings collection allowUpdates store = .ok diff) {id : DatasetId}
    (hid : id ∈ touched collection) : store.holds id = true := by
  rw [prepare, hdemanded] at hresult
  obtain ⟨_, hknown, _⟩ := bind_eq_ok.1 hresult
  exact holds_of_requireKnown hknown hid

/-- What a revised store mentions, it has mentioned before or lineage has brought. -/
theorem mentioned_or_touched {collection : Collection}
    (hcollection : Collection.Lockstep collection) (hrevises : Revises store collection diff)
    {id : DatasetId} (hmentioned : (store.written diff).mentioned.contains id = true) :
    store.mentioned.contains id = true ∨ id ∈ touched collection := by
  rw [MemoryStore.mem_mentioned] at hmentioned ⊢
  rcases hmentioned with hhome | hend
  · rw [MemoryStore.homes_written_of_revises hrevises, OrderedMap.contains_override] at hhome
    rcases hhome with hold | hnew
    · exact .inl (.inl hold)
    · obtain ⟨home, hhome⟩ := OrderedMap.contains_eq_true.1 hnew
      exact .inr (mem_touched_of_home hhome)
  · obtain ⟨edge, hedge, hid⟩ := MemoryStore.mem_endpoints.1 hend
    rw [MemoryStore.edges_written] at hedge
    rcases hedge with hold | ⟨relation, hadded, rfl⟩
    · exact .inl (.inr (MemoryStore.mem_endpoints.2 ⟨edge, hold, hid⟩))
    · obtain ⟨hsource, hderived⟩ :=
        hcollection.known relation ((hrevises.relationsToAdd relation).1 hadded).1
      rcases hid with rfl | rfl
      · exact .inr (mem_touched hsource)
      · exact .inr (mem_touched hderived)

/-- A revised store mentions what it mentioned before. -/
theorem still_mentioned {collection : Collection} (hrevises : Revises store collection diff)
    {id : DatasetId} (hmentioned : store.mentioned.contains id = true) :
    (store.written diff).mentioned.contains id = true := by
  rw [MemoryStore.mem_mentioned] at hmentioned ⊢
  rcases hmentioned with hhome | hend
  · rw [MemoryStore.homes_written_of_revises hrevises, OrderedMap.contains_override]
    exact .inl (.inl hhome)
  · obtain ⟨edge, hedge, hid⟩ := MemoryStore.mem_endpoints.1 hend
    refine .inr (MemoryStore.mem_endpoints.2 ⟨edge, ?_, hid⟩)
    rw [MemoryStore.edges_written]
    exact .inl hedge

/-- Where datasets have to be known, what is mentioned stays the same. -/
theorem mentioned_written {collection : Collection} (hcollection : Collection.Lockstep collection)
    (hdemanded : settings.requireKnownDatasets = true)
    (hresult : prepare settings collection allowUpdates store = .ok diff)
    (hknows : store.datasets = store.mentioned) :
    (store.written diff).mentioned = store.mentioned := by
  have hrevises := revises_of_prepare hcollection hresult
  apply OrderedMap.ext_contains
  intro id
  refine ⟨fun hmentioned => ?_, still_mentioned hrevises⟩
  rcases mentioned_or_touched hcollection hrevises hmentioned with hold | htouched
  · exact hold
  · have hheld : store.datasets.contains id = true := holds_of_prepare hdemanded hresult htouched
    rwa [hknows] at hheld

/-! ## From one addition to the next -/

/-- A store as it is between additions: it is sound, and where datasets have to be known, it
knows just those it mentions. -/
structure Reloadable (settings : StoreSettings) (store : MemoryStore) : Prop where
  sound : store.Sound
  knows : settings.requireKnownDatasets = true → store.datasets = store.mentioned

theorem reloadable_of_ofSnapshot {snapshot : Snapshot}
    (hresult : MemoryStore.ofSnapshot snapshot = .ok store) : Reloadable settings store where
  sound := MemoryStore.sound_ofSnapshot hresult
  knows := by
    intro _
    obtain ⟨collection, _, hstore⟩ := bind_eq_ok.1 hresult
    cases hstore
    rfl

theorem Reloadable.added (hreloadable : Reloadable settings store)
    (hadded : add settings tree bound allowUpdates store = .ok diff after) :
    Reloadable settings after where
  sound := by
    have hkept := @Operation.sound_after store (.add tree bound allowUpdates) settings trivial
      hreloadable.sound
    rwa [Operation.after, leaves, hadded] at hkept
  knows := by
    intro hdemanded
    have hknows := hreloadable.knows hdemanded
    rw [datasets_of_add hreloadable.sound.indexed hadded]
    obtain ⟨hplanned, rfl⟩ := (add_eq_ok_iff hreloadable.sound.indexed).1 hadded
    obtain ⟨collection, hbuilt, hprepared⟩ := exists_of_prepareTree hplanned
    rw [mentioned_written hbuilt.sound.toLockstep hdemanded hprepared hknows, hknows]

end Index

end DatasetLineage
