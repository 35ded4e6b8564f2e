import DatasetLineage.Proofs.Store.Patching
import DatasetLineage.Proofs.Store.Reloading
import DatasetLineage.Proofs.Store.Rounds

/-!
# Merging the same lineage again

What a merge has written is stored, so the same merge finds nothing to write when it is made
again.  It also goes through again.  The edges it has added lie between datasets from which its
closure starts, and an edge between these is no short cut to any other dataset.  So the second
closure takes as many rounds as the first one, although the stored lineage may hang together in
another way by then.  Nor does it come across a cycle: the first closure had none, with the added
edges or without, and no stored relation leaves it.  What the rest of the store is like makes no
difference.
-/

namespace DatasetLineage

/-! ## Edges between the first datasets -/

section Distance

variable {edges added : Set Edge} {ids : List DatasetId} {hops : Nat} {id : DatasetId}

theorem ConnectedIn.mono {more : Set Edge} (hsubset : edges ⊆ more)
    (hconnected : ConnectedIn edges ids hops id) : ConnectedIn more ids hops id := by
  induction hconnected with
  | start hmem => exact .start hmem
  | step _ hstep ih =>
      obtain ⟨direction, hleads⟩ := hstep
      exact ih.step ⟨direction, hleads.mono hsubset⟩

variable (hends : ∀ edge ∈ added, edge.source ∈ ids ∧ edge.derived ∈ ids)
include hends

/-- Edges between the given datasets are no short cut. -/
theorem ConnectedIn.of_union (hconnected : ConnectedIn (edges ∪ added) ids hops id) :
    ∃ fewer ≤ hops, ConnectedIn edges ids fewer id := by
  induction hconnected with
  | start hmem => exact ⟨0, le_rfl, .start hmem⟩
  | @step hops before other _ hstep ih =>
      obtain ⟨fewer, hfewer, hbefore⟩ := ih
      obtain ⟨direction, hold | hnew⟩ := hstep
      · exact ⟨fewer + 1, Nat.succ_le_succ hfewer, hbefore.step ⟨direction, hold⟩⟩
      · obtain ⟨hsource, hderived⟩ := hends _ hnew
        refine ⟨0, Nat.zero_le _, .start ?_⟩
        cases direction with
        | sources => exact hsource
        | derived => exact hderived

/-- Edges between the given datasets leave the distance of every dataset as it is. -/
theorem atDistance_union :
    AtDistance (edges ∪ added) ids hops id ↔ AtDistance edges ids hops id := by
  constructor
  · rintro ⟨hconnected, hleast⟩
    have hcloser : ∀ fewer < hops, ¬ ConnectedIn edges ids fewer id := by
      intro fewer hfewer hcloser
      exact hleast fewer hfewer (hcloser.mono Set.subset_union_left)
    obtain ⟨fewer, hfewer, hold⟩ := hconnected.of_union hends
    rcases hfewer.lt_or_eq with hless | rfl
    · exact absurd hold (hcloser fewer hless)
    · exact ⟨hold, hcloser⟩
  · rintro ⟨hconnected, hleast⟩
    refine ⟨hconnected.mono Set.subset_union_left, ?_⟩
    intro fewer hfewer hcloser
    obtain ⟨least, hwithin, hold⟩ := hcloser.of_union hends
    exact hleast least (hwithin.trans_lt hfewer) hold

end Distance

namespace MemoryStore

variable {store after : MemoryStore} {collection existing : Collection} {ids : List DatasetId}
  {inside : Set DatasetId}

/-- What a closure has returned is a part of the store without a cycle. -/
theorem Closure.sheltered (hclosure : Closure store ids existing inside)
    (hindexed : store.Indexed) : Sheltered store existing.edges inside where
  indexed := hindexed
  enclosed := hclosure.enclosed
  acyclic := hclosure.built.sound.acyclic

/-- A limit of rounds that lets a closure through lets it through again after edges have been
added between the datasets it starts from, if they close no cycle with what was returned. -/
theorem Closure.fetchClosure_again (hclosure : Closure store ids existing inside)
    (hindexed : store.Indexed) (hafter : after.Indexed) {added : Set Edge}
    (hadded : after.edges = store.edges ∪ added)
    (hends : ∀ edge ∈ added, edge.source ∈ ids ∧ edge.derived ∈ ids)
    (hacyclic : Acyclic (existing.edges ∪ added)) {limit : Nat}
    (hfetched : store.fetchClosure limit ids = .ok existing) :
    ∃ collected, after.fetchClosure limit ids = .ok collected := by
  have hbefore := hclosure.sheltered hindexed
  have hsheltered : Sheltered after (existing.edges ∪ added) inside := by
    refine ⟨hafter, ?_, hacyclic⟩
    rw [hadded]
    apply hclosure.enclosed.union
    intro edge hedge
    exact (hends edge hedge).imp (hclosure.covers _) (hclosure.covers _)
  obtain ⟨collected, hcollected⟩ := hsheltered.fetchClosure_succeeds hclosure.covers
  by_cases hlimit : limit = 0
  · rw [hlimit]
    exact ⟨collected, hcollected⟩
  · have hnear : ∀ id, ¬ AtDistance store.edges ids limit id := by
      rcases hbefore.fetchClosure_limited hclosure.covers hlimit with ⟨_, hrefused⟩ | ⟨hnone, _⟩
      · cases hfetched.symm.trans hrefused
      · exact hnone
    rcases hsheltered.fetchClosure_limited hclosure.covers hlimit with
      ⟨⟨id, hfar⟩, _⟩ | ⟨_, hsame⟩
    · rw [hadded, atDistance_union hends] at hfar
      exact absurd hfar (hnear id)
    · exact ⟨collected, hsame.trans hcollected⟩

/-- Lineage that is stored already does not contradict the closure around it. -/
theorem Closure.consistent_of_includes (hclosure : Closure store ids existing inside)
    (hincludes : store.Includes collection) (hcollection : Collection.Sound collection)
    (habout : ∀ said ∈ collection.facts, said.About inside) :
    Consistent (existing.facts ∪ collection.facts) := by
  have hexisting := hclosure.built.sound.consistent
  have hhome : ∀ id home, Fact.home id home ∈ existing.facts ∪ collection.facts →
      Fact.home id home ∈ existing.facts := by
    rintro id home (hold | hnew)
    · exact hold
    · exact hclosure.homes id (habout _ hnew) home (hincludes.homes id home hnew)
  have hrelation : ∀ relation, Fact.relation relation ∈ existing.facts ∪ collection.facts →
      Fact.relation relation ∈ existing.facts := by
    rintro relation (hold | hnew)
    · exact hold
    · exact hclosure.relations relation (hincludes.relations relation hnew)
        (.inl (habout _ hnew))
  constructor
  · intro id left right hleft hright
    exact hexisting.homes id left right (hhome id left hleft) (hhome id right hright)
  · intro left right hleft hright hedge
    exact hexisting.classifiers left right (hrelation left hleft) (hrelation right hright) hedge
  · apply hexisting.acyclic.mono
    intro edge hedge
    obtain ⟨relation, hsaid, rfl⟩ := Fact.mem_edgesAmong.1 hedge
    exact Fact.mem_edgesAmong.2 ⟨relation, hrelation relation hsaid, rfl⟩
  · have hnone : ∀ edge tree, Fact.detail edge tree ∉ existing.facts :=
      fun _ _ hheld => Snapshot.detail_not_mem_listing (hclosure.held hheld)
    rintro edge left right (hleft | hleft) (hright | hright)
    · exact absurd hleft (hnone edge left)
    · exact absurd hleft (hnone edge left)
    · exact absurd hright (hnone edge right)
    · exact hcollection.consistent.details edge left right hleft hright

end MemoryStore

namespace Index

variable {settings : StoreSettings} {store after : MemoryStore}
  {collection existing : Collection} {allowUpdates : Bool} {diff : Diff}

/-- Against a closure of a store that has it, a collection is planned to write nothing. -/
theorem plan_of_includes (hcollection : collection.Built) (hindexed : store.Indexed)
    {inside : Set DatasetId}
    (hclosure : MemoryStore.Closure store (touched collection) existing inside)
    (hincludes : store.Includes collection) : plan collection existing allowUpdates = .ok {} := by
  have hlockstep := hcollection.sound.toLockstep
  have habout := about_of_covers hlockstep hclosure.covers
  have hnothing : collection.revisions existing = {} :=
    hincludes.eq_empty hindexed (revises_of_closure hclosure hlockstep habout)
  cases allowUpdates with
  | false =>
      have hconsistent := hclosure.consistent_of_includes hincludes hcollection.sound habout
      have hcompared := (hcollection.diffAgainst_eq_ok_iff hclosure.built).2
        ⟨(hcollection.merge_succeeds_iff hclosure.built.sound).2 hconsistent, rfl⟩
      have hplanned : plan collection existing false = .ok (collection.additions existing) := by
        rw [plan, hcompared]
        rfl
      rw [hplanned, eq_revisions_of_plan hplanned, hnothing]
  | true =>
      have hlacks : collection.relations.filter existing.lacks = [] :=
        congrArg Diff.relationsToAdd hnothing
      rw [plan_permissive, hlacks, hnothing]
      rfl

theorem requireKnown_congr (hdatasets : after.datasets = store.datasets) (ids : List DatasetId) :
    requireKnown after ids = requireKnown store ids := by
  simp only [requireKnown, MemoryStore.holds, hdatasets]

/-- A merge that has been written is planned to write nothing when it is made again. -/
theorem prepare_again (hcollection : collection.Built) (hindexed : store.Indexed)
    (hprepared : prepare settings collection allowUpdates store = .ok diff) :
    prepare settings collection allowUpdates (store.written diff) = .ok {} := by
  have hlockstep := hcollection.sound.toLockstep
  have hrevises := revises_of_prepare hlockstep hprepared
  have hafter := hindexed.written hrevises.writable
  have hincludes := MemoryStore.includes_written hlockstep hrevises hindexed
  have hends : ∀ edge ∈ edgesOf diff.relationsToAdd,
      edge.source ∈ touched collection ∧ edge.derived ∈ touched collection := by
    rintro edge ⟨relation, hadded, rfl⟩
    obtain ⟨hsource, hderived⟩ :=
      hlockstep.known relation ((hrevises.relationsToAdd relation).1 hadded).1
    exact ⟨mem_touched hsource, mem_touched hderived⟩
  obtain ⟨hknown, existing, hfetched, hplan⟩ := prepared_iff.1 hprepared
  obtain ⟨_, hfirst⟩ := MemoryStore.closure_of_fetchClosure hfetched
  have hacyclic := acyclic_of_plan hfirst.built.sound (.of_built hcollection) hplan
  obtain ⟨collected, hcollected⟩ := hfirst.fetchClosure_again hindexed hafter
    (store.edges_written diff) hends hacyclic hfetched
  obtain ⟨inside, hclosure⟩ := MemoryStore.closure_of_fetchClosure hcollected
  refine prepared_iff.2 ⟨?_, collected, hcollected,
    plan_of_includes hcollection hafter hclosure hincludes⟩
  intro hdemanded
  rw [requireKnown_congr (store.datasets_written diff), hknown hdemanded]

/-- Merging the same lineage again writes nothing.  A merge into a store, or an addition of a
tree, that has succeeded succeeds again under the same settings, a limit of rounds and a
requirement of known datasets included, whether it may update or not.  Its diff is empty then,
and the store is left as it is. -/
theorem Visited.merge_again (hvisited : Visited store) (settings : StoreSettings)
    (allowUpdates : Bool) :
    (∀ collection, Collection.Built collection → ∀ diff after,
        merge settings collection allowUpdates store = .ok diff after →
          merge settings collection allowUpdates after = .ok {} after) ∧
      ∀ tree bound diff after, add settings tree bound allowUpdates store = .ok diff after →
        add settings tree bound allowUpdates after = .ok {} after := by
  have hindexed := hvisited.indexed
  have hunchanged : ∀ store : MemoryStore, store.written {} = store :=
    fun _ => MemoryStore.written_of_isEmpty rfl
  constructor
  · intro collection hcollection diff after hmerged
    have hlockstep := hcollection.sound.toLockstep
    obtain ⟨hprepared, rfl⟩ := (merge_eq_ok_iff hindexed hlockstep).1 hmerged
    have hwritten := hindexed.written (writable_of_prepare hlockstep hprepared)
    exact (merge_eq_ok_iff hwritten hlockstep).2
      ⟨prepare_again hcollection hindexed hprepared, (hunchanged _).symm⟩
  · intro tree bound diff after hadded
    obtain ⟨hplanned, rfl⟩ := (add_eq_ok_iff hindexed).1 hadded
    have hwritten := hindexed.written (writable_of_prepareTree hplanned)
    obtain ⟨collection, hcollection, hprepared⟩ := bind_eq_ok.1 hplanned
    have hbuilt : collection.Built := .ofTree tree bound (ok_of_mapError hcollection)
    exact (add_eq_ok_iff hwritten).2
      ⟨bind_eq_ok.2 ⟨collection, hcollection, prepare_again hbuilt hindexed hprepared⟩,
        (hunchanged _).symm⟩

/-- A relation that is relabelled and one that joins two stored ones, under a limit of two
rounds.  The third dataset is as far from the first ones before the merge as after it. -/
theorem merge_again_of_joining :
    ∃ store collection diff after, Visited store ∧ Collection.Built collection ∧
      store.relations =
        [⟨"nbar", .numbered 1, .numbered 2⟩, ⟨"bias", .numbered 3, .numbered 4⟩] ∧
      collection.relations =
        [⟨"flat", .numbered 1, .numbered 2⟩, ⟨"dark", .numbered 2, .numbered 3⟩] ∧
      merge ⟨true, 2⟩ collection true store = .ok diff after ∧
      after.relations = [⟨"flat", .numbered 1, .numbered 2⟩,
        ⟨"bias", .numbered 3, .numbered 4⟩, ⟨"dark", .numbered 2, .numbered 3⟩] ∧
      merge ⟨true, 2⟩ collection true after = .ok {} after := by
  let seed : Snapshot := ⟨OrderedMap.empty,
    [⟨"nbar", .numbered 1, .numbered 2⟩, ⟨"bias", .numbered 3, .numbered 4⟩]⟩
  let store : MemoryStore :=
    { datasets := IdSet.ofList [.numbered 1, .numbered 2, .numbered 3, .numbered 4]
      relations := seed.relations
      positions := MemoryStore.positionsFrom 0 seed.relations OrderedMap.empty }
  let collection := (Collection.empty.insertRelation
    ⟨"flat", .numbered 1, .numbered 2⟩).insertRelation ⟨"dark", .numbered 2, .numbered 3⟩
  let existing := (Collection.empty.insertRelation
    ⟨"nbar", .numbered 1, .numbered 2⟩).insertRelation ⟨"bias", .numbered 3, .numbered 4⟩
  let diff : Diff :=
    { relationsToAdd := [⟨"dark", .numbered 2, .numbered 3⟩]
      relationsToUpdate := [⟨"flat", .numbered 1, .numbered 2⟩] }
  have hvisited : Visited store := .seeded seed rfl
  have hsound : store.Sound := @MemoryStore.sound_ofSnapshot store seed rfl
  have hcollection : Collection.Built collection :=
    .change (.relation ⟨"dark", .numbered 2, .numbered 3⟩)
      (.change (.relation ⟨"flat", .numbered 1, .numbered 2⟩) .empty rfl) rfl
  have hknown : requireKnown store (touched collection) = .ok () := rfl
  have hfetched : store.fetchClosure 2 (touched collection) = .ok existing := by
    rw [MemoryStore.fetchClosure, MemoryStore.fetchClosureFrom_of_advance (by decide) (by decide)
      rfl rfl, MemoryStore.fetchClosureFrom_of_advance (by decide) (by decide) rfl rfl,
      MemoryStore.fetchClosureFrom_of_done rfl]
    rfl
  have hacyclic : Acyclic (store.edges ∪ collection.edges) := by
    rw [← edgesOf_append]
    exact acyclic_of_ascending (by decide)
  have hplanned : plan collection existing true = .ok diff := by
    have hlockstep := hcollection.sound.toLockstep
    obtain ⟨inside, hclosure⟩ := MemoryStore.closure_of_fetchClosure hfetched
    rcases plan_permissive_cases hclosure hsound hlockstep
      (about_of_covers hlockstep hclosure.covers) with ⟨_, hplanned⟩ | ⟨hcyclic, _⟩
    · exact hplanned
    · exact absurd hacyclic hcyclic
  have hprepared : prepare ⟨true, 2⟩ collection true store = .ok diff :=
    prepared_iff.2 ⟨fun _ => hknown, existing, hfetched, hplanned⟩
  have hmerged := (merge_eq_ok_iff hvisited.indexed hcollection.sound.toLockstep).2
    ⟨hprepared, rfl⟩
  exact ⟨store, collection, diff, _, hvisited, hcollection, rfl, rfl, hmerged, rfl,
    (hvisited.merge_again ⟨true, 2⟩ true).1 collection hcollection diff _ hmerged⟩

end Index

end DatasetLineage
