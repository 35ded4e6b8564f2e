import DatasetLineage.Proofs.Store.History

/-!
# A merge into a store and a merge in memory

A strict merge into a store looks at the stored lineage around the new datasets only, merges
it into the new lineage and not the other way round, and writes a diff.  Still it comes down
to the merge of the new lineage into a collection of the whole store.  All that the new lineage
says is about datasets inside the closure, and there the closure has what is stored.  So the
part of the store outside can neither contradict new lineage nor hold what it adds.  Only a
cycle outside makes a difference: there is no collection of a store that has one.
-/

namespace DatasetLineage

namespace MemoryStore

variable {store : MemoryStore} {ids : List DatasetId} {inside : Set DatasetId}
variable {collection existing stored merged : Collection}

/-! ## What a closure stands for -/

/-- A closure has everything the store holds about the datasets inside. -/
theorem Closure.mem_facts_of_about (hclosure : Closure store ids existing inside) {said : Fact}
    (hstored : said ∈ store.facts) (habout : said.About inside) : said ∈ existing.facts := by
  cases said with
  | home id home => exact hclosure.homes id habout home (home_mem_facts.1 hstored)
  | known id =>
      obtain ⟨relation, hmem, hend⟩ := Snapshot.known_mem_listing.1 hstored
      rcases hend with rfl | rfl
      · exact (hclosure.built.sound.known _ (hclosure.relations relation hmem (.inl habout))).1
      · exact (hclosure.built.sound.known _ (hclosure.relations relation hmem (.inr habout))).2
  | relation relation =>
      exact hclosure.relations relation (relation_mem_facts.1 hstored) (.inl habout)
  | detail edge tree => exact absurd hstored Snapshot.detail_not_mem_listing

/-- Lineage about the datasets inside contradicts the store exactly if it contradicts the
closure. -/
theorem Closure.consistent_iff (hclosure : Closure store ids existing inside)
    (hsound : store.Sound) (hcollection : Collection.Lockstep collection)
    (habout : ∀ said ∈ collection.facts, said.About inside) :
    Consistent (existing.facts ∪ collection.facts) ↔
      Consistent (store.facts ∪ collection.facts) := by
  -- Inside, the closure stands for the store.  Outside, the store alone says anything.
  have hkept : ∀ said ∈ store.facts ∪ collection.facts, said.About inside →
      said ∈ existing.facts ∪ collection.facts := by
    intro said hsaid hinside
    apply hsaid.imp_left
    intro hstored
    exact hclosure.mem_facts_of_about hstored hinside
  have hstored : ∀ said ∈ store.facts ∪ collection.facts, ¬ said.About inside →
      said ∈ store.facts := by
    intro said hsaid houtside
    apply hsaid.resolve_right
    intro hnew
    exact houtside (habout said hnew)
  constructor
  · intro hpart
    constructor
    · intro id left right hleft hright
      by_cases hid : id ∈ inside
      · exact hpart.homes id left right (hkept _ hleft hid) (hkept _ hright hid)
      · exact hsound.consistent.homes id left right (hstored _ hleft hid) (hstored _ hright hid)
    · intro left right hleft hright hedge
      have hsame : left.source = right.source := congrArg Edge.source hedge
      by_cases hsource : left.source ∈ inside
      · have hother : right.source ∈ inside := hsame ▸ hsource
        exact hpart.classifiers left right (hkept _ hleft hsource) (hkept _ hright hother) hedge
      · have hother : right.source ∉ inside := hsame ▸ hsource
        exact hsound.consistent.classifiers left right (hstored _ hleft hsource)
          (hstored _ hright hother) hedge
    · have hacyclic := hpart.acyclic
      rw [Fact.edgesAmong_union, Collection.edgesAmong_facts] at hacyclic
      rw [Fact.edgesAmong_union, edgesAmong_facts]
      exact (hclosure.acyclic_iff hsound hcollection habout).1 hacyclic
    · intro edge left right hleft hright
      exact hpart.details edge left right (hkept _ hleft trivial) (hkept _ hright trivial)
  · intro hwhole
    exact hwhole.mono (Set.union_subset_union_left _ hclosure.held)

/-- A collection of everything that a store holds. -/
structure Mirror (store : MemoryStore) (stored : Collection) : Prop where
  sound : Collection.Sound stored
  facts : stored.facts = store.facts
  homes : stored.homes = store.homes
  relations : stored.relations = store.relations

/-- The snapshot of a sound store gives such a collection. -/
theorem Sound.exists_mirror (hsound : store.Sound) :
    ∃ stored, Collection.ofSnapshot store.snapshot = .ok stored ∧ Mirror store stored := by
  obtain ⟨stored, hstored, hsoundStored, hhomes, hrelations⟩ :=
    @Collection.ofSnapshot_succeeds store.snapshot hsound.indexed.distinct hsound.acyclic
  exact ⟨stored, hstored, hsoundStored, Collection.facts_ofSnapshot hstored, hhomes, hrelations⟩

theorem Mirror.edges (hmirror : Mirror store stored) : stored.edges = store.edges :=
  congrArg edgesOf hmirror.relations

/-- What a closure lacks of lineage about the datasets inside, the whole store lacks. -/
theorem Closure.additions_eq (hclosure : Closure store ids existing inside)
    (habout : ∀ said ∈ collection.facts, said.About inside)
    (hmirror : Mirror store stored) :
    collection.additions existing = collection.additions stored := by
  have hlacks : collection.relations.filter existing.lacks =
      collection.relations.filter stored.lacks := by
    apply List.filter_congr
    intro relation hmem
    rw [Bool.eq_iff_iff, hclosure.lacks_iff (habout (.relation relation) hmem),
      hmirror.sound.lacks_iff, hmirror.edges]
  have hlacksHome : collection.homes.entries.filter existing.lacksHome =
      collection.homes.entries.filter stored.lacksHome := by
    apply List.filter_congr
    intro entry hentry
    have hid : entry.1 ∈ inside :=
      habout (.home entry.1 entry.2) (OrderedMap.get?_eq_some_iff.2 hentry)
    have hlookup : existing.homes.get? entry.1 = store.homes.get? entry.1 := hclosure.home_eq hid
    rw [Collection.lacksHome, Collection.lacksHome, OrderedMap.contains, OrderedMap.contains,
      hlookup, hmirror.homes]
  rw [Collection.additions, Collection.additions, hlacks, hlacksHome]

/-! ## Writing what is lacking -/

/-- Writing what a store lacks leads to what the merge into all of it holds. -/
theorem Mirror.snapshot_written (hmirror : Mirror store stored) (hcollection : collection.Built)
    (hmerged : stored.afterMerging (Collection.merge collection) = .ok merged) :
    (store.written (collection.additions stored)).snapshot = merged.toSnapshot := by
  have hsameHomes : (store.written (collection.additions stored)).homes = merged.homes := by
    apply OrderedMap.ext
    intro id
    calc (store.written (collection.additions stored)).homes.get? id
      _ = ((collection.additions stored).homesToAdd.get? id).or (store.homes.get? id) := by
          rw [homes_written, OrderedMap.get?_override, OrderedMap.get?_override]
          exact Option.none_or
      _ = (stored.home id).or (collection.home id) := by
          rw [Collection.get?_homesToAdd_additions, OrderedMap.contains, ← hmirror.homes,
            Collection.home, Collection.home]
          cases stored.homes.get? id <;> simp
      _ = merged.home id := (hmirror.sound.home_merge hmerged id).symm
  have hsameRelations : (store.written (collection.additions stored)).relations =
      merged.relations := by
    rw [hmirror.sound.relations_merge hcollection.sound.toLockstep hmerged, hmirror.relations]
    exact relations_foldl_appendRelation store _
  rw [snapshot, Collection.toSnapshot, hsameHomes, hsameRelations]

end MemoryStore

namespace Index

variable {store : MemoryStore} {collection stored : Collection} {diff : Diff}

/-! ## Merging into the store -/

/-- What is planned against the closure is what the merge into all of the store adds. -/
theorem prepare_eq_ok_iff {settings : StoreSettings}
    (hrequire : settings.requireKnownDatasets = false) (hlimit : settings.maxFetchRounds = 0)
    (hsound : store.Sound) (hmirror : MemoryStore.Mirror store stored)
    (hcollection : collection.Built) :
    prepare settings collection false store = .ok diff ↔
      (∃ merged, stored.afterMerging (Collection.merge collection) = .ok merged) ∧
        diff = collection.additions stored := by
  obtain ⟨existing, inside, hclosure, hprepare⟩ :=
    exists_closure_of_sound hsound hrequire hlimit collection
  have hlockstep := hcollection.sound.toLockstep
  have habout := about_of_covers hlockstep hclosure.covers
  have hplanned : prepare settings collection false store =
      (collection.diffAgainst (some existing) false).mapError
        (Failure.contradiction .comparingStored) := by
    rw [hprepare, plan]
    cases collection.diffAgainst (some existing) false <;> rfl
  have hsucceeds : (∃ merged, existing.afterMerging (Collection.merge collection) = .ok merged) ↔
      ∃ merged, stored.afterMerging (Collection.merge collection) = .ok merged := by
    rw [hcollection.merge_succeeds_iff hclosure.built.sound,
      hclosure.consistent_iff hsound hlockstep habout,
      hcollection.merge_succeeds_iff hmirror.sound, hmirror.facts]
  calc prepare settings collection false store = .ok diff
    _ ↔ collection.diffAgainst (some existing) false = .ok diff := by
        rw [hplanned, mapError_eq_ok]
    _ ↔ (∃ merged, existing.afterMerging (Collection.merge collection) = .ok merged) ∧
          diff = collection.additions existing :=
        hcollection.diffAgainst_eq_ok_iff hclosure.built
    _ ↔ (∃ merged, stored.afterMerging (Collection.merge collection) = .ok merged) ∧
          diff = collection.additions stored := by
        rw [hsucceeds, hclosure.additions_eq habout hmirror]

def mergedInto (snapshot : Snapshot) (collection : Collection) :
    Except LineageError Collection := do
  let stored ← Collection.ofSnapshot snapshot
  stored.afterMerging (Collection.merge collection)

/-- A strict merge into a store without a cycle refines the merge in memory.  It goes through
exactly if the collection can be merged into one of the whole store, and then the store holds
the homes and the relations of that, the relations in their order. -/
theorem Visited.merge_refines (hvisited : Visited store) (hacyclic : Acyclic store.edges)
    (hcollection : collection.Built) {settings : StoreSettings}
    (hrequire : settings.requireKnownDatasets = false) (hlimit : settings.maxFetchRounds = 0) :
    ((∃ diff after, merge settings collection false store = .ok diff after) ↔
        ∃ merged, mergedInto store.snapshot collection = .ok merged) ∧
      ∀ diff after merged, merge settings collection false store = .ok diff after →
        mergedInto store.snapshot collection = .ok merged →
          after.snapshot = merged.toSnapshot := by
  have hsound : store.Sound := ⟨hvisited.indexed, hacyclic⟩
  obtain ⟨stored, hstored, hmirror⟩ := hsound.exists_mirror
  have hmemory : mergedInto store.snapshot collection =
      stored.afterMerging (Collection.merge collection) := by
    rw [mergedInto, hstored]
    rfl
  have hprepare : ∀ diff, prepare settings collection false store = .ok diff ↔
      (∃ merged, stored.afterMerging (Collection.merge collection) = .ok merged) ∧
        diff = collection.additions stored :=
    fun _ => prepare_eq_ok_iff hrequire hlimit hsound hmirror hcollection
  have hmerge : ∀ diff after, merge settings collection false store = .ok diff after ↔
      prepare settings collection false store = .ok diff ∧ after = store.written diff :=
    fun _ _ => merge_eq_ok_iff hsound.indexed hcollection.sound.toLockstep
  constructor
  · simp only [hmerge, hprepare, hmemory, exists_and_left, exists_eq, and_true]
  · intro diff after merged hafter hmerged
    obtain ⟨hplanned, rfl⟩ := (hmerge diff after).1 hafter
    obtain ⟨_, rfl⟩ := (hprepare diff).1 hplanned
    rw [hmemory] at hmerged
    exact hmirror.snapshot_written hcollection hmerged

/-- A store seeded from a snapshot, and a relation that goes on from one of its datasets. -/
theorem merge_refines_of_continuation :
    ∃ store collection diff after, Visited store ∧ Acyclic store.edges ∧ collection.Built ∧
      store.relations = [⟨"nbar", .numbered 1, .numbered 2⟩] ∧
      collection.relations = [⟨"bias", .numbered 2, .numbered 3⟩] ∧
      merge {} collection false store = .ok diff after ∧
      after.relations =
        [⟨"nbar", .numbered 1, .numbered 2⟩, ⟨"bias", .numbered 2, .numbered 3⟩] ∧
      after.homes.entries = [(.numbered 1, "ga"), (.numbered 3, "de")] := by
  let seed : Snapshot :=
    { homes := .ofList [(.numbered 1, "ga")]
      relations := [⟨"nbar", .numbered 1, .numbered 2⟩] }
  have hvisited : ∃ store, Visited store ∧ Acyclic store.edges ∧ store.snapshot = seed :=
    ⟨_, .seeded seed rfl, acyclic_of_ascending (by decide), rfl⟩
  obtain ⟨store, hvisited, hacyclic, hseed⟩ := hvisited
  have hfirst : Collection.Built
      (Collection.empty.insertRelation ⟨"bias", .numbered 2, .numbered 3⟩) :=
    .change (.relation ⟨"bias", .numbered 2, .numbered 3⟩) .empty rfl
  have hcollection := Collection.Built.change (.home (.numbered 3) (some "de")) hfirst rfl
  obtain ⟨hsucceeds, hsame⟩ :=
    @Visited.merge_refines store _ hvisited hacyclic hcollection {} rfl rfl
  rw [hseed] at hsucceeds hsame
  obtain ⟨diff, after, hmerged⟩ := hsucceeds.2 ⟨_, rfl⟩
  have hafter := hsame diff after _ hmerged rfl
  refine ⟨store, _, diff, after, hvisited, hacyclic, hcollection, ?_, rfl, hmerged, ?_, ?_⟩
  · exact congrArg Snapshot.relations hseed
  · exact congrArg Snapshot.relations hafter
  · exact congrArg (fun snapshot => snapshot.homes.entries) hafter

/-- Next to a stored cycle a strict merge goes through, but the whole of the store cannot be
merged with. -/
theorem merge_refines_fails_beside_cycle :
    Visited tangled ∧ apart.Built ∧
      (∃ diff after, merge {} apart false tangled = .ok diff after) ∧
      ¬ ∃ merged, mergedInto tangled.snapshot apart = .ok merged := by
  refine ⟨visited_tangled, built_apart, ⟨_, _, merge_apart false⟩, ?_⟩
  rintro ⟨merged, hmerged⟩
  obtain ⟨stored, hstored, _⟩ := bind_eq_ok.1 hmerged
  exact not_acyclic_tangled
    ((Collection.ofSnapshot_succeeds_iff tangled.snapshot).1 ⟨stored, hstored⟩).acyclic

end Index

end DatasetLineage
