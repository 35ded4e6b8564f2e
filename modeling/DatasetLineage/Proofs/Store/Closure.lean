import DatasetLineage.Proofs.Collection.Comparison
import DatasetLineage.Proofs.Store.Sound

/-!
# The stored lineage around some datasets

A fetch gives the stored homes of some datasets and the stored relations that touch them,
and nothing else.  The rounds of a closure end with a set of datasets that no stored relation
leaves, and with every stored home and relation of theirs.  So what a closure returns is
enclosed in the store, and new edges between its datasets can close a cycle only inside it.
Fetched lineage can contradict itself by a cycle only.  So the rounds go through as long as
they stay in a part of the store without a cycle, whatever the rest of the store is like.
-/

namespace DatasetLineage

/-- A fact is about some datasets: about a home, a mention or a source among them.  A detailed
subtree counts as being about any datasets, since a store holds none. -/
def Fact.About (inside : Set DatasetId) : Fact → Prop
  | .home id _ => id ∈ inside
  | .known id => id ∈ inside
  | .relation stated => stated.source ∈ inside
  | .detail _ _ => True

namespace MemoryStore

variable {store : MemoryStore} {ids : List DatasetId} {batch : Collection}

def facts (store : MemoryStore) : Set Fact :=
  Fact.contents store.snapshot.listing

theorem home_mem_facts {id : DatasetId} {home : String} :
    .home id home ∈ store.facts ↔ store.homes.get? id = some home :=
  Snapshot.home_mem_listing

theorem relation_mem_facts {relation : Relation} :
    .relation relation ∈ store.facts ↔ relation ∈ store.relations :=
  Snapshot.relation_mem_listing

theorem edgesAmong_facts (store : MemoryStore) : Fact.edgesAmong store.facts = store.edges :=
  Snapshot.edgesAmong_contents_listing

/-- Stored lineage contradicts itself by a cycle, if at all. -/
theorem Indexed.consistent (hindexed : store.Indexed) {held : Set Fact}
    (hheld : held ⊆ store.facts) (hacyclic : Acyclic (Fact.edgesAmong held)) :
    Consistent held where
  homes := by
    intro id left right hleft hright
    have hstored := home_mem_facts.1 (hheld hleft)
    exact Option.some.inj (hstored.symm.trans (home_mem_facts.1 (hheld hright)))
  classifiers := by
    intro left right hleft hright hedge
    rw [List.inj_on_of_nodup_map hindexed.distinct (relation_mem_facts.1 (hheld hleft))
      (relation_mem_facts.1 (hheld hright)) hedge]
  acyclic := hacyclic
  details := fun _ _ _ hleft => absurd (hheld hleft) Snapshot.detail_not_mem_listing

theorem Sound.consistent (hsound : store.Sound) : Consistent store.facts :=
  hsound.indexed.consistent subset_rfl (store.edgesAmong_facts.symm ▸ hsound.acyclic)

/-! ## One fetch -/

def touching (store : MemoryStore) (ids : List DatasetId) : List Relation :=
  store.relations.filter fun relation => relation.source ∈ ids || relation.derived ∈ ids

def listing (store : MemoryStore) (ids : List DatasetId) : List Fact :=
  (ids.flatMap fun id => (store.homes.get? id).toList.map fun home => .home id home) ++
    (store.touching ids).map .relation

theorem enterAll_homes (homes : Homes) (ids : List DatasetId) :
    Collection.enterAll
        (ids.flatMap fun id => (homes.get? id).toList.map fun home => .home id home) =
      ids.forM fun id => Collection.mergeHome? id (homes.get? id) := by
  induction ids with
  | nil => rfl
  | cons id rest ih =>
      change _ = (do
        Collection.mergeHome? id (homes.get? id)
        rest.forM fun id => Collection.mergeHome? id (homes.get? id))
      rw [List.flatMap_cons, Collection.enterAll_append, ih]
      cases homes.get? id with
      | none => rfl
      | some home =>
          rw [Option.toList_some, List.map_singleton, Collection.enterAll_singleton]
          rfl

/-- A fetch enters its facts into an empty collection. -/
theorem fetch_eq_ok_iff :
    store.fetch ids = .ok batch ↔
      Collection.enterAll (store.listing ids) Collection.empty = .ok () batch := by
  rw [fetch, bind_eq_ok, listing, Collection.enterAll_append, enterAll_homes,
    Collection.enterAll_map, Merging.bind_eq_ok]
  simp only [mapError_eq_ok, Collection.afterMerging_eq_ok]
  exact Iff.rfl

/-- What a fetch enters is part of what the store holds. -/
theorem contents_listing_subset (store : MemoryStore) (ids : List DatasetId) :
    Fact.contents (store.listing ids) ⊆ store.facts := by
  intro said hsaid
  rw [listing, Fact.contents_append, Set.mem_union, Fact.mem_contents_flatMap,
    Fact.mem_contents_map] at hsaid
  cases hsaid with
  | inl hhome =>
      obtain ⟨id, _, hhome⟩ := hhome
      obtain ⟨home, hstored, rfl⟩ := Fact.mem_contents_map.1 hhome
      exact home_mem_facts.2 (Option.mem_toList.1 hstored)
  | inr hrelation =>
      obtain ⟨relation, hmem, hsaid⟩ := hrelation
      exact ⟨.relation relation, List.mem_append_right _
        (List.mem_map_of_mem (List.mem_filter.1 hmem).1), hsaid⟩

theorem edgesAmong_contents_listing (store : MemoryStore) (ids : List DatasetId) :
    Fact.edgesAmong (Fact.contents (store.listing ids)) = edgesOf (store.touching ids) := by
  ext edge
  simp [Fact.mem_edgesAmong, listing, Fact.contents_append, Fact.mem_contents_map,
    Fact.mem_contents_flatMap, Fact.content, mem_edgesOf]

theorem built_of_fetch (hbatch : store.fetch ids = .ok batch) : batch.Built := by
  obtain ⟨homes, hhomes, hrelations⟩ := bind_eq_ok.1 hbatch
  have hfirst : Collection.empty.afterMerging (Collection.performAll
      (ids.map fun id => .home id (store.homes.get? id))) = .ok homes := by
    rw [Collection.performAll_map]
    exact ok_of_mapError hhomes
  have hsecond : homes.afterMerging (Collection.performAll
      ((store.touching ids).map .relation)) = .ok batch := by
    rw [Collection.performAll_map]
    exact ok_of_mapError hrelations
  exact (Collection.Built.empty.performAll hfirst).performAll hsecond

/-- A fetch returns the facts it enters. -/
theorem facts_of_fetch (hbatch : store.fetch ids = .ok batch) :
    batch.facts = Fact.contents (store.listing ids) := by
  have hentered := Collection.sound_empty.enteredAll (fetch_eq_ok_iff.1 hbatch)
  rw [hentered.facts_eq, Collection.facts_empty, Set.empty_union]

theorem edges_of_fetch (hbatch : store.fetch ids = .ok batch) :
    batch.edges = edgesOf (store.touching ids) := by
  rw [← Collection.edgesAmong_facts, facts_of_fetch hbatch, edgesAmong_contents_listing]

/-- A fetch goes through unless the relations that it fetches have a cycle. -/
theorem Indexed.fetch_succeeds_iff (hindexed : store.Indexed) :
    (∃ batch, store.fetch ids = .ok batch) ↔ Acyclic (edgesOf (store.touching ids)) := by
  constructor
  · rintro ⟨batch, hbatch⟩
    rw [← edges_of_fetch hbatch]
    exact (built_of_fetch hbatch).sound.acyclic
  · intro hacyclic
    simp only [fetch_eq_ok_iff]
    apply Collection.sound_empty.enterAll_succeeds
    rw [Collection.facts_empty, Set.empty_union]
    apply hindexed.consistent (store.contents_listing_subset ids)
    rwa [edgesAmong_contents_listing]

/-- What a fetch returns. -/
structure Fetched (store : MemoryStore) (ids : List DatasetId) (batch : Collection) : Prop where
  built : batch.Built
  held : batch.facts ⊆ store.facts
  mem_relations : ∀ relation, relation ∈ batch.relations ↔
    relation ∈ store.relations ∧ (relation.source ∈ ids ∨ relation.derived ∈ ids)
  home_iff : ∀ id home, batch.home id = some home ↔ id ∈ ids ∧ store.homes.get? id = some home

theorem fetched_of_fetch (hbatch : store.fetch ids = .ok batch) : Fetched store ids batch := by
  have hfacts := facts_of_fetch hbatch
  constructor
  · exact built_of_fetch hbatch
  · rw [hfacts]
    exact store.contents_listing_subset ids
  · intro relation
    rw [← Collection.relation_mem_facts, hfacts]
    simp [listing, touching, Fact.contents_append, Fact.mem_contents_map,
      Fact.mem_contents_flatMap, Fact.content]
  · intro id home
    rw [← Collection.home_mem_facts, hfacts]
    simp [listing, Fact.contents_append, Fact.mem_contents_map, Fact.mem_contents_flatMap,
      Fact.content]

/-- Of the datasets that a fetch was made for, it has the homes. -/
theorem Fetched.home_eq {batch : Collection} (hfetched : Fetched store ids batch) {id : DatasetId}
    (hid : id ∈ ids) : batch.home id = store.homes.get? id := by
  apply Option.ext
  intro home
  rw [hfetched.home_iff, and_iff_right hid]

/-- A fetch knows the ends of the relations it returns, and no other datasets. -/
theorem known_of_fetch (hbatch : store.fetch ids = .ok batch) {id : DatasetId} :
    batch.contains id = true ↔
      ∃ relation ∈ batch.relations, id = relation.source ∨ id = relation.derived := by
  constructor
  · intro hknown
    have hsaid : Fact.known id ∈ batch.facts := hknown
    rw [facts_of_fetch hbatch, listing, Fact.contents_append, Set.mem_union,
      Fact.mem_contents_flatMap, Fact.mem_contents_map] at hsaid
    rcases hsaid with ⟨other, _, hhome⟩ | ⟨relation, hmem, hsaid⟩
    · obtain ⟨home, _, hhome⟩ := Fact.mem_contents_map.1 hhome
      cases hhome
    · have htouched := List.mem_filter.1 hmem
      have hreturned : relation ∈ batch.relations :=
        ((fetched_of_fetch hbatch).mem_relations relation).2 (by simpa using htouched)
      exact ⟨relation, hreturned, by simpa [Fact.content] using hsaid⟩
  · rintro ⟨relation, hmem, rfl | rfl⟩
    · exact ((built_of_fetch hbatch).sound.known relation hmem).1
    · exact ((built_of_fetch hbatch).sound.known relation hmem).2

/-! ## Rounds -/

/-- A dataset was fetched, or is fetched next. -/
def Met (state : FetchState) (id : DatasetId) : Prop :=
  state.seen.contains id = true ∨ id ∈ state.frontier

theorem fetchClosureFrom_of_done {limit : Nat} {state : FetchState}
    (hdone : state.frontier = []) :
    store.fetchClosureFrom limit state = .ok state.collected := by
  rw [fetchClosureFrom, if_pos hdone]

theorem fetchClosureFrom_of_advance {limit : Nat} {state next : FetchState}
    (hfrontier : state.frontier ≠ []) (hlimit : ¬ (limit ≠ 0 ∧ limit ≤ state.rounds))
    (hbatch : store.fetch state.frontier = .ok batch)
    (hnext : state.advance (fun _ => true) batch = .ok next) :
    store.fetchClosureFrom limit state = store.fetchClosureFrom limit next := by
  rw [fetchClosureFrom, if_neg hfrontier, if_neg hlimit]
  split
  · next failure hfailed =>
      rw [hbatch] at hfailed
      cases hfailed
  · next other hother =>
      rw [hbatch] at hother
      cases hother
      split
      · next failure hfailed =>
          rw [hnext] at hfailed
          cases hfailed
      · next after hafter =>
          rw [hnext] at hafter
          cases hafter
          rfl

/-- Where nothing is stored about the given datasets, there is nothing else to fetch. -/
theorem fetchClosure_of_nothing {ids : List DatasetId}
    (hnothing : store.fetch ids = .ok Collection.empty) (limit : Nat) :
    store.fetchClosure limit ids = .ok Collection.empty := by
  rw [fetchClosure]
  by_cases hids : ids = []
  · rw [fetchClosureFrom_of_done hids]
  · rw [fetchClosureFrom_of_advance hids (by simp) hnothing rfl, fetchClosureFrom_of_done rfl]
    rfl

theorem fetchClosureFrom_of_failed_fetch {limit : Nat} {state : FetchState} {failure : Failure}
    (hfrontier : state.frontier ≠ []) (hlimit : ¬ (limit ≠ 0 ∧ limit ≤ state.rounds))
    (hfailed : store.fetch state.frontier = .error failure) :
    store.fetchClosureFrom limit state = .error failure := by
  rw [fetchClosureFrom, if_neg hfrontier, if_neg hlimit]
  split
  · next other hother => exact congrArg _ (Except.error.inj (hother.symm.trans hfailed))
  · next batch hbatch => cases hbatch.symm.trans hfailed

theorem fetchClosureFrom_of_failed_advance {limit : Nat} {state : FetchState} {failure : Failure}
    (hfrontier : state.frontier ≠ []) (hlimit : ¬ (limit ≠ 0 ∧ limit ≤ state.rounds))
    (hbatch : store.fetch state.frontier = .ok batch)
    (hfailed : state.advance (fun _ => true) batch = .error failure) :
    store.fetchClosureFrom limit state = .error failure := by
  rw [fetchClosureFrom, if_neg hfrontier, if_neg hlimit]
  split
  · next other hother => cases hother.symm.trans hbatch
  · next other hother =>
      cases hother.symm.trans hbatch
      split
      · next other hother => exact congrArg _ (Except.error.inj (hother.symm.trans hfailed))
      · next next hnext => cases hnext.symm.trans hfailed

/-- What rounds of fetching have collected: stored lineage, and of the datasets fetched
before all homes and all relations that touch them. -/
structure Gathered (store : MemoryStore) (state : FetchState) : Prop where
  built : state.collected.Built
  held : state.collected.facts ⊆ store.facts
  homes : ∀ id home, state.seen.contains id = true → store.homes.get? id = some home →
    state.collected.home id = some home
  relations : ∀ relation ∈ store.relations,
    state.seen.contains relation.source = true ∨ state.seen.contains relation.derived = true →
      relation ∈ state.collected.relations

/-- What the rounds of a closure have come to: in addition the ends of the relations that
touch the datasets fetched before are met. -/
structure Fetching (store : MemoryStore) (ids : List DatasetId) (state : FetchState) : Prop
    extends Gathered store state where
  ends : ∀ relation ∈ store.relations,
    state.seen.contains relation.source = true ∨ state.seen.contains relation.derived = true →
      Met state relation.source ∧ Met state relation.derived
  met : ∀ id ∈ ids, Met state id

theorem not_seen_at_start {id : DatasetId} : (OrderedMap.empty : IdSet).contains id ≠ true := by
  simp [OrderedMap.contains]

theorem gathered_start (store : MemoryStore) (ids : List DatasetId) :
    Gathered store { frontier := ids } := by
  constructor
  · exact Collection.Built.empty
  · change Collection.empty.facts ⊆ store.facts
    rw [Collection.facts_empty]
    exact Set.empty_subset store.facts
  · intro id home hseen
    exact absurd hseen not_seen_at_start
  · intro relation _ hseen
    exact absurd hseen (not_or.2 ⟨not_seen_at_start, not_seen_at_start⟩)

theorem fetching_start (store : MemoryStore) (ids : List DatasetId) :
    Fetching store ids { frontier := ids } where
  toGathered := gathered_start store ids
  ends := by
    intro relation _ hseen
    exact absurd hseen (not_or.2 ⟨not_seen_at_start, not_seen_at_start⟩)
  met := fun _ hid => .inr hid

section Advance

variable {state next : FetchState}

theorem advance_eq_ok {wanted : DatasetId → Bool} (hnext : state.advance wanted batch = .ok next) :
    state.collected.afterMerging (Collection.merge batch) = .ok next.collected ∧
      next.seen = IdSet.addAll state.seen state.frontier ∧
      next.frontier = FetchState.nextFrontier next.seen wanted batch := by
  rw [FetchState.advance] at hnext
  cases hmerged : state.collected.afterMerging (Collection.merge batch) with
  | error error =>
      rw [hmerged] at hnext
      cases hnext
  | ok collected =>
      rw [hmerged] at hnext
      cases hnext
      exact ⟨rfl, rfl, rfl⟩

theorem rounds_of_advance {wanted : DatasetId → Bool}
    (hnext : state.advance wanted batch = .ok next) : next.rounds = state.rounds + 1 := by
  rw [FetchState.advance] at hnext
  split at hnext
  · cases hnext
  · cases hnext
    rfl

theorem seen_of_advance {wanted : DatasetId → Bool}
    (hnext : state.advance wanted batch = .ok next) {id : DatasetId} :
    next.seen.contains id = true ↔ Met state id := by
  rw [(advance_eq_ok hnext).2.1]
  exact IdSet.contains_addAll

/-- A round goes on with everything it wants that the batch knows and no round has
fetched. -/
theorem met_of_advance {wanted : DatasetId → Bool} (hnext : state.advance wanted batch = .ok next)
    {id : DatasetId} (hknown : batch.contains id = true) (hwanted : wanted id = true) :
    Met next id := by
  by_cases hold : next.seen.contains id = true
  · exact .inl hold
  · have hmem : id ∈ batch.datasetIds := OrderedMap.contains_iff_mem_keys.1 hknown
    rw [Met, (advance_eq_ok hnext).2.2]
    exact .inr (List.mem_filter.2 ⟨hmem, by simp [hold, hwanted]⟩)

/-- A round contradicts the rounds before by a cycle, if at all. -/
theorem Gathered.advance_succeeds (hgathered : Gathered store state) (hindexed : store.Indexed)
    (hbatch : store.fetch state.frontier = .ok batch)
    (hacyclic : Acyclic (state.collected.edges ∪ batch.edges)) (wanted : DatasetId → Bool) :
    ∃ next, state.advance wanted batch = .ok next := by
  have hfetched := fetched_of_fetch hbatch
  have hconsistent : Consistent (state.collected.facts ∪ batch.facts) := by
    apply hindexed.consistent (Set.union_subset hgathered.held hfetched.held)
    rwa [Fact.edgesAmong_union, Collection.edgesAmong_facts, Collection.edgesAmong_facts]
  obtain ⟨collected, hmerged⟩ :=
    (hfetched.built.merge_succeeds_iff hgathered.built.sound).2 hconsistent
  rw [FetchState.advance, hmerged]
  exact ⟨_, rfl⟩

/-- A relation at a dataset seen by now was collected before, or is part of the batch. -/
theorem touched_of_advance {wanted : DatasetId → Bool}
    (hnext : state.advance wanted batch = .ok next) {relation : Relation}
    (hends : next.seen.contains relation.source = true ∨
      next.seen.contains relation.derived = true) :
    (state.seen.contains relation.source = true ∨ state.seen.contains relation.derived = true) ∨
      (relation.source ∈ state.frontier ∨ relation.derived ∈ state.frontier) := by
  rw [seen_of_advance hnext, seen_of_advance hnext, Met, Met] at hends
  tauto

/-- A round adds what it has fetched. -/
theorem facts_of_advance {wanted : DatasetId → Bool} (hbuilt : state.collected.Built)
    (hbatch : store.fetch state.frontier = .ok batch)
    (hnext : state.advance wanted batch = .ok next) :
    next.collected.Built ∧ next.collected.facts = state.collected.facts ∪ batch.facts := by
  have hmerged := (advance_eq_ok hnext).1
  refine ⟨hbuilt.change (.collection batch) hmerged, ?_⟩
  rw [(hbuilt.sound.enteredAll_merge hmerged).facts_eq, (built_of_fetch hbatch).contents_listing]

/-- What has been met stays met. -/
theorem Met.advance {wanted : DatasetId → Bool} (hnext : state.advance wanted batch = .ok next)
    {id : DatasetId} (hmet : Met state id) : Met next id :=
  .inl ((seen_of_advance hnext).2 hmet)

/-- A round for everything meets both ends of the relations around its frontier. -/
theorem met_ends_of_advance (hbatch : store.fetch state.frontier = .ok batch)
    (hnext : state.advance (fun _ => true) batch = .ok next) {relation : Relation}
    (hmem : relation ∈ batch.relations) :
    Met next relation.source ∧ Met next relation.derived := by
  obtain ⟨hsource, hderived⟩ := (built_of_fetch hbatch).sound.known relation hmem
  exact ⟨met_of_advance hnext hsource rfl, met_of_advance hnext hderived rfl⟩

/-- A round gathers what is stored around its frontier, whatever it goes on with. -/
theorem Gathered.advance (hgathered : Gathered store state) {wanted : DatasetId → Bool}
    (hbatch : store.fetch state.frontier = .ok batch)
    (hnext : state.advance wanted batch = .ok next) : Gathered store next := by
  have hfetched := fetched_of_fetch hbatch
  obtain ⟨hbuilt, hfacts⟩ := facts_of_advance hgathered.built hbatch hnext
  constructor
  · exact hbuilt
  · rw [hfacts]
    exact Set.union_subset hgathered.held hfetched.held
  · intro id home hid hhome
    rw [← Collection.home_mem_facts, hfacts]
    cases (seen_of_advance hnext).1 hid with
    | inl hold => exact .inl (hgathered.homes id home hold hhome)
    | inr hnew => exact .inr ((hfetched.home_iff id home).2 ⟨hnew, hhome⟩)
  · intro relation hmem hends
    rw [← Collection.relation_mem_facts, hfacts]
    cases touched_of_advance hnext hends with
    | inl hold => exact .inl (hgathered.relations relation hmem hold)
    | inr hnew => exact .inr ((hfetched.mem_relations relation).2 ⟨hmem, hnew⟩)

theorem Fetching.advance (hfetching : Fetching store ids state)
    (hbatch : store.fetch state.frontier = .ok batch)
    (hnext : state.advance (fun _ => true) batch = .ok next) : Fetching store ids next where
  toGathered := hfetching.toGathered.advance hbatch hnext
  ends := by
    have hfetched := fetched_of_fetch hbatch
    intro relation hmem hends
    cases touched_of_advance hnext hends with
    | inl hold =>
        obtain ⟨hsource, hderived⟩ := hfetching.ends relation hmem hold
        exact ⟨hsource.advance hnext, hderived.advance hnext⟩
    | inr hnew =>
        exact met_ends_of_advance hbatch hnext ((hfetched.mem_relations relation).2 ⟨hmem, hnew⟩)
  met := fun id hid => (hfetching.met id hid).advance hnext

end Advance

/-- What a closure of some datasets returns: stored lineage that is enclosed in the store,
around datasets that include the given ones. -/
structure Closure (store : MemoryStore) (ids : List DatasetId) (collected : Collection)
    (inside : Set DatasetId) : Prop where
  built : collected.Built
  held : collected.facts ⊆ store.facts
  covers : ∀ id ∈ ids, id ∈ inside
  homes : ∀ id ∈ inside, ∀ home, store.homes.get? id = some home →
    collected.home id = some home
  relations : ∀ relation ∈ store.relations, relation.source ∈ inside ∨ relation.derived ∈ inside →
    relation ∈ collected.relations
  enclosed : Enclosed store.edges collected.edges inside

section Inside

variable {existing collection : Collection} {inside : Set DatasetId}

/-- Of the edges that start inside, a closure has the stored classifiers. -/
theorem Closure.classifier_iff (hclosure : Closure store ids existing inside) {edge : Edge}
    (hsource : edge.source ∈ inside) {classifier : String} :
    existing.classifier edge = some classifier ↔ edge.relation classifier ∈ store.relations := by
  rw [hclosure.built.sound.classifiers]
  constructor
  · intro hmem
    exact relation_mem_facts.1 (hclosure.held hmem)
  · intro hstored
    exact hclosure.relations _ hstored (.inl hsource)

theorem Closure.edge_mem_iff (hclosure : Closure store ids existing inside) {edge : Edge}
    (hsource : edge.source ∈ inside) : edge ∈ existing.edges ↔ edge ∈ store.edges := by
  constructor
  · intro hmem
    exact hclosure.enclosed.subset hmem
  · intro hstored
    exact (hclosure.enclosed.closed edge hstored (.inl hsource)).1

/-- What a closure lacks of the edges that start inside, the store lacks. -/
theorem Closure.lacks_iff (hclosure : Closure store ids existing inside) {relation : Relation}
    (hsource : relation.source ∈ inside) :
    existing.lacks relation = true ↔ relation.edge ∉ store.edges := by
  have hstart : relation.edge.source ∈ inside := hsource
  rw [hclosure.built.sound.lacks_iff, hclosure.edge_mem_iff hstart]

/-- Of the datasets inside, a closure has the stored homes. -/
theorem Closure.home_eq (hclosure : Closure store ids existing inside) {id : DatasetId}
    (hid : id ∈ inside) : existing.home id = store.homes.get? id := by
  apply Option.ext
  intro home
  constructor
  · intro hheld
    exact home_mem_facts.1 (hclosure.held hheld)
  · exact hclosure.homes id hid home

/-- The relations of a collection that is about the datasets inside end there. -/
theorem ends_of_about (hcollection : Collection.Lockstep collection)
    (habout : ∀ said ∈ collection.facts, said.About inside) :
    ∀ edge ∈ collection.edges, edge.source ∈ inside ∧ edge.derived ∈ inside := by
  rintro edge ⟨relation, hmem, rfl⟩
  obtain ⟨hsource, hderived⟩ := hcollection.known relation hmem
  exact ⟨habout (.known relation.source) hsource, habout (.known relation.derived) hderived⟩

/-- The closure has a cycle together with lineage about the datasets inside exactly if the
whole store has. -/
theorem Closure.acyclic_iff (hclosure : Closure store ids existing inside)
    (hsound : store.Sound) (hcollection : Collection.Lockstep collection)
    (habout : ∀ said ∈ collection.facts, said.About inside) :
    Acyclic (existing.edges ∪ collection.edges) ↔ Acyclic (store.edges ∪ collection.edges) := by
  constructor
  · exact hclosure.enclosed.acyclic_union (ends_of_about hcollection habout) hsound.acyclic
  · intro hacyclic
    exact hacyclic.mono (Set.union_subset_union_left _ hclosure.enclosed.subset)

end Inside

theorem Fetching.closure {state : FetchState} (hfetching : Fetching store ids state)
    (hdone : state.frontier = []) :
    Closure store ids state.collected {id | state.seen.contains id = true} := by
  have hseen : ∀ id, Met state id → state.seen.contains id = true := by
    intro id hmet
    cases hmet with
    | inl hseen => exact hseen
    | inr hfrontier =>
        rw [hdone] at hfrontier
        cases hfrontier
  constructor
  · exact hfetching.built
  · exact hfetching.held
  · intro id hid
    exact hseen id (hfetching.met id hid)
  · intro id hid home hhome
    exact hfetching.homes id home hid hhome
  · exact hfetching.relations
  · constructor
    · rw [← edgesAmong_facts, ← Collection.edgesAmong_facts]
      exact Fact.edgesAmong_mono hfetching.held
    · rintro edge ⟨relation, hmem, rfl⟩ htouched
      obtain ⟨hsource, hderived⟩ := hfetching.ends relation hmem htouched
      have hcollected := hfetching.relations relation hmem htouched
      exact ⟨Relation.edge_mem_edgesOf hcollected, hseen _ hsource, hseen _ hderived⟩

theorem Fetching.closure_of_rounds {state : FetchState} {limit : Nat} {collected : Collection}
    (hfetching : Fetching store ids state)
    (hresult : store.fetchClosureFrom limit state = .ok collected) :
    ∃ inside, Closure store ids collected inside := by
  fun_induction fetchClosureFrom store limit state with
  | case1 state hdone =>
      cases hresult
      exact ⟨_, hfetching.closure hdone⟩
  | case2 => cases hresult
  | case3 => cases hresult
  | case4 => cases hresult
  | case5 state _ _ batch hbatch next hnext ih =>
      exact ih (hfetching.advance hbatch hnext) hresult

/-- The closure of some datasets is enclosed in the store. -/
theorem closure_of_fetchClosure {limit : Nat} {collected : Collection}
    (hresult : store.fetchClosure limit ids = .ok collected) :
    ∃ inside, Closure store ids collected inside :=
  (fetching_start store ids).closure_of_rounds hresult

/-! ## A part without a cycle -/

/-- A part of the stored lineage that has no cycle, and that no stored relation leaves. -/
structure Sheltered (store : MemoryStore) (part : Set Edge) (inside : Set DatasetId) :
    Prop where
  indexed : store.Indexed
  enclosed : Enclosed store.edges part inside
  acyclic : Acyclic part

/-- Rounds that have not left a part. -/
structure Confined (part : Set Edge) (inside : Set DatasetId) (state : FetchState) : Prop where
  frontier : ∀ id ∈ state.frontier, id ∈ inside
  collected : state.collected.edges ⊆ part

/-- A sound store has no cycle anywhere. -/
theorem Sound.sheltered (hsound : store.Sound) : Sheltered store store.edges Set.univ where
  indexed := hsound.indexed
  enclosed := ⟨subset_rfl, fun _ hedge _ => ⟨hedge, trivial, trivial⟩⟩
  acyclic := hsound.acyclic

section Sheltered

variable {part : Set Edge} {inside : Set DatasetId} {state next : FetchState}

theorem confined_start (part : Set Edge) (hids : ∀ id ∈ ids, id ∈ inside) :
    Confined part inside { frontier := ids } where
  frontier := hids
  collected := by
    change edgesOf [] ⊆ part
    rw [edgesOf_nil]
    exact Set.empty_subset part

/-- A stored relation that touches datasets inside belongs to the part, with both its ends. -/
theorem Sheltered.touching (hsheltered : Sheltered store part inside)
    (hids : ∀ id ∈ ids, id ∈ inside) {relation : Relation} (hstored : relation ∈ store.relations)
    (htouched : relation.source ∈ ids ∨ relation.derived ∈ ids) :
    relation.edge ∈ part ∧ relation.source ∈ inside ∧ relation.derived ∈ inside :=
  hsheltered.enclosed.closed _ (Relation.edge_mem_edgesOf hstored)
    (htouched.imp (hids _) (hids _))

theorem Sheltered.touching_subset (hsheltered : Sheltered store part inside)
    (hids : ∀ id ∈ ids, id ∈ inside) : edgesOf (store.touching ids) ⊆ part := by
  rintro edge ⟨relation, hmem, rfl⟩
  obtain ⟨hstored, htouched⟩ := List.mem_filter.1 hmem
  exact (hsheltered.touching hids hstored (by simpa using htouched)).1

variable (hsheltered : Sheltered store part inside) (hconfined : Confined part inside state)
include hsheltered hconfined

theorem Sheltered.fetch_succeeds : ∃ batch, store.fetch state.frontier = .ok batch :=
  hsheltered.indexed.fetch_succeeds_iff.2
    (hsheltered.acyclic.mono (hsheltered.touching_subset hconfined.frontier))

theorem Sheltered.advance_succeeds (hgathered : Gathered store state)
    (hbatch : store.fetch state.frontier = .ok batch) (wanted : DatasetId → Bool) :
    ∃ next, state.advance wanted batch = .ok next := by
  apply hgathered.advance_succeeds hsheltered.indexed hbatch
  apply hsheltered.acyclic.mono
  rw [edges_of_fetch hbatch]
  exact Set.union_subset hconfined.collected (hsheltered.touching_subset hconfined.frontier)

/-- A round in a part goes on inside. -/
theorem Confined.advance (hgathered : Gathered store state)
    (hbatch : store.fetch state.frontier = .ok batch) {wanted : DatasetId → Bool}
    (hnext : state.advance wanted batch = .ok next) : Confined part inside next where
  frontier := by
    intro id hid
    rw [(advance_eq_ok hnext).2.2] at hid
    have hknown : batch.contains id = true :=
      OrderedMap.contains_iff_mem_keys.2 (List.mem_filter.1 hid).1
    obtain ⟨relation, hmem, hend⟩ := (known_of_fetch hbatch).1 hknown
    obtain ⟨hstored, htouched⟩ := ((fetched_of_fetch hbatch).mem_relations relation).1 hmem
    obtain ⟨_, hsource, hderived⟩ := hsheltered.touching hconfined.frontier hstored htouched
    rcases hend with rfl | rfl
    · exact hsource
    · exact hderived
  collected := by
    have hfacts := (facts_of_advance hgathered.built hbatch hnext).2
    rw [← Collection.edgesAmong_facts, hfacts, Fact.edgesAmong_union,
      Collection.edgesAmong_facts, Collection.edgesAmong_facts, edges_of_fetch hbatch]
    exact Set.union_subset hconfined.collected (hsheltered.touching_subset hconfined.frontier)

theorem Sheltered.rounds_succeed (hgathered : Gathered store state) :
    ∃ collected, store.fetchClosureFrom 0 state = .ok collected := by
  fun_induction fetchClosureFrom store 0 state with
  | case1 state hdone => exact ⟨state.collected, rfl⟩
  | case2 state _ hlimit => exact absurd rfl hlimit.1
  | case3 state _ _ failure hfailed =>
      obtain ⟨batch, hbatch⟩ := hsheltered.fetch_succeeds hconfined
      rw [hbatch] at hfailed
      cases hfailed
  | case4 state _ _ batch hbatch failure hfailed =>
      obtain ⟨next, hnext⟩ := hsheltered.advance_succeeds hconfined hgathered hbatch _
      rw [hnext] at hfailed
      cases hfailed
  | case5 state _ _ batch hbatch next hnext ih =>
      exact ih (hconfined.advance hsheltered hgathered hbatch hnext)
        (hgathered.advance hbatch hnext)

end Sheltered

/-- Without a limit of rounds, a part without a cycle gives the closure of its datasets. -/
theorem Sheltered.fetchClosure_succeeds {part : Set Edge} {inside : Set DatasetId}
    (hsheltered : Sheltered store part inside) (hids : ∀ id ∈ ids, id ∈ inside) :
    ∃ collected, store.fetchClosure 0 ids = .ok collected :=
  hsheltered.rounds_succeed (confined_start part hids) (gathered_start store ids)

end MemoryStore

end DatasetLineage
