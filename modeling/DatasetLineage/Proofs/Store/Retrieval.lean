import DatasetLineage.Proofs.Collection.Bounded
import DatasetLineage.Proofs.Store.Refinement

/-!
# Bounded retrieval

A fetch in one direction goes on with what its frontier leads to, level by level, and never
fetches a dataset twice.  A dataset that several paths lead to is fetched with the shortest
of them, when most levels are left, so nothing in reach is missed on the longer ones.  One
more round than there are levels gives the neighbours of the datasets at the last level,
by which a node that is cut off can be told from a leaf.  So the tree that is read from the
fetched part is the tree of the whole store, up to the order of siblings.
-/

namespace DatasetLineage

namespace MemoryStore

variable {store : MemoryStore} {direction : Direction} {levels : Levels} {root : DatasetId}
  {state next : FetchState} {batch collected : Collection}

/-- Everything a store holds about a dataset is collected. -/
structure Covers (store : MemoryStore) (collected : Collection) (id : DatasetId) : Prop where
  home : ∀ home, store.homes.get? id = some home → collected.home id = some home
  relations : ∀ relation ∈ store.relations, relation.source = id ∨ relation.derived = id →
    relation ∈ collected.relations

/-- Stored lineage with everything about the datasets in reach of a root. -/
structure Excerpt (store : MemoryStore) (direction : Direction) (levels : Levels)
    (root : DatasetId) (collected : Collection) : Prop where
  built : collected.Built
  held : collected.facts ⊆ store.facts
  covers : ∀ depth id, levels.Allows depth → ReachesIn store.edges direction depth root id →
    store.Covers collected id

theorem Gathered.covers (hgathered : Gathered store state) {id : DatasetId}
    (hseen : state.seen.contains id = true) : store.Covers state.collected id where
  home := fun home => hgathered.homes id home hseen
  relations := by
    intro relation hmem hends
    apply hgathered.relations relation hmem
    apply hends.imp
    · rintro rfl
      exact hseen
    · rintro rfl
      exact hseen

/-! ## Rounds in one direction -/

def ledTo (direction : Direction) (batch : Collection) (frontier : List DatasetId) :
    DatasetId → Bool :=
  fun id => frontier.any fun parent =>
    (batch.neighbours direction parent).any fun next => next.id = id

/-- What rounds in one direction have come to: whatever the datasets fetched before lead to
is met. -/
structure Descending (store : MemoryStore) (direction : Direction) (state : FetchState) :
    Prop extends Gathered store state where
  children : ∀ parent child, state.seen.contains parent = true →
    Leads store.edges direction parent child → Met state child

theorem descending_start (store : MemoryStore) (direction : Direction) (ids : List DatasetId) :
    Descending store direction { frontier := ids } where
  toGathered := gathered_start store ids
  children := fun _ _ hseen => absurd hseen not_seen_at_start

/-- A batch leads on from the datasets it was fetched for as the store does. -/
theorem Fetched.leads {ids : List DatasetId} (hfetched : Fetched store ids batch)
    {parent child : DatasetId} (hparent : parent ∈ ids)
    (hstep : Leads store.edges direction parent child) :
    Leads batch.edges direction parent child := by
  obtain ⟨relation, hmem, hedge⟩ := hstep
  refine ⟨relation, (hfetched.mem_relations relation).2 ⟨hmem, ?_⟩, hedge⟩
  cases direction with
  | sources =>
      have hderived : relation.derived = parent := congrArg Edge.derived hedge
      exact .inr (hderived ▸ hparent)
  | derived =>
      have hsource : relation.source = parent := congrArg Edge.source hedge
      exact .inl (hsource ▸ hparent)

theorem Descending.advance (hdescending : Descending store direction state)
    (hbatch : store.fetch state.frontier = .ok batch)
    (hnext : state.advance (ledTo direction batch state.frontier) batch = .ok next) :
    Descending store direction next where
  toGathered := hdescending.toGathered.advance hbatch hnext
  children := by
    intro parent child hparent hstep
    cases (seen_of_advance hnext).1 hparent with
    | inl hold =>
        have hmet := hdescending.children parent child hold hstep
        exact .inl ((seen_of_advance hnext).2 hmet)
    | inr hnew =>
        have hfetched := fetched_of_fetch hbatch
        have hlockstep := hfetched.built.sound.toLockstep
        have hled := hfetched.leads hnew hstep
        apply met_of_advance hnext (hlockstep.contains_of_leads direction hled).2
        obtain ⟨neighbour, hneighbour, hid⟩ := hlockstep.leads_iff.1 hled
        exact List.any_eq_true.2 ⟨parent, hnew, List.any_eq_true.2 ⟨neighbour, hneighbour, by
          simpa using hid⟩⟩

/-- When nothing is left to fetch, everything below the datasets met is collected. -/
theorem Descending.excerpt (hdescending : Descending store direction state)
    (hdone : state.frontier = []) {origin : DatasetId} (horigin : Met state origin) :
    Excerpt store direction levels origin state.collected where
  built := hdescending.built
  held := hdescending.held
  covers := by
    have hseen : ∀ id, Met state id → state.seen.contains id = true := by
      intro id hmet
      apply hmet.resolve_right
      simp [hdone]
    intro depth id hallows hpath
    have hmet : Met state id := by
      clear hallows
      induction hpath with
      | refl _ => exact horigin
      | head hstep _ ih => exact ih (hdescending.children _ _ (hseen _ horigin) hstep)
    exact hdescending.covers (hseen id hmet)

theorem Descending.excerpt_of_rounds (hdescending : Descending store direction state)
    (hresult : store.fetchDirectedFrom direction levels state = .ok collected)
    {origin : DatasetId} (horigin : Met state origin) :
    Excerpt store direction levels origin collected := by
  fun_induction fetchDirectedFrom store direction levels state generalizing origin with
  | case1 levels state hdone =>
      cases hresult
      exact hdescending.excerpt hdone horigin
  | case2 => cases hresult
  | case3 => cases hresult
  | case4 state _ batch hbatch _ next hnext =>
      -- The round after the last level: only the datasets met before it are in reach.
      cases hresult
      have hadvanced := hdescending.advance hbatch hnext
      refine ⟨hadvanced.built, hadvanced.held, fun depth id hallows hpath => ?_⟩
      cases hpath with
      | refl => exact hadvanced.covers ((seen_of_advance hnext).2 horigin)
      | head => exact absurd rfl (Levels.allows_succ.1 hallows).1
  | case5 levels state _ batch hbatch _ next hnext _ ih =>
      have hadvanced := hdescending.advance hbatch hnext
      have hseen : next.seen.contains origin = true := (seen_of_advance hnext).2 horigin
      have hexcerpt := ih hadvanced hresult (.inl hseen)
      refine ⟨hexcerpt.built, hexcerpt.held, fun depth id hallows hpath => ?_⟩
      cases hpath with
      | refl => exact hexcerpt.covers 0 origin Levels.allows_zero (.refl origin)
      | head hstep hrest =>
          have hbelow := ih hadvanced hresult (hadvanced.children _ _ hseen hstep)
          exact hbelow.covers _ id (Levels.allows_succ.1 hallows).2 hrest

/-- A fetch in one direction returns everything in reach. -/
theorem excerpt_of_fetchDirected
    (hresult : store.fetchDirected direction levels root = .ok collected) :
    Excerpt store direction levels root collected :=
  (descending_start store direction [root]).excerpt_of_rounds hresult
    (.inr List.mem_cons_self)

theorem Descending.rounds_succeed {part : Set Edge} {inside : Set DatasetId}
    (hdescending : Descending store direction state) (hsheltered : Sheltered store part inside)
    (hconfined : Confined part inside state) :
    ∃ collected, store.fetchDirectedFrom direction levels state = .ok collected := by
  fun_induction fetchDirectedFrom store direction levels state with
  | case1 _ state => exact ⟨state.collected, rfl⟩
  | case2 _ state _ failure hfailed =>
      obtain ⟨batch, hbatch⟩ := hsheltered.fetch_succeeds hconfined
      rw [hbatch] at hfailed
      cases hfailed
  | case3 _ state _ batch hbatch _ failure hfailed =>
      obtain ⟨next, hnext⟩ :=
        hsheltered.advance_succeeds hconfined hdescending.toGathered hbatch _
      rw [hnext] at hfailed
      cases hfailed
  | case4 state _ batch _ _ next => exact ⟨next.collected, rfl⟩
  | case5 _ state _ batch hbatch _ next hnext _ ih =>
      exact ih (hdescending.advance hbatch hnext)
        (hconfined.advance hsheltered hdescending.toGathered hbatch hnext)

/-- From a sound store a fetch in one direction succeeds. -/
theorem Sound.fetchDirected_succeeds (hsound : store.Sound) (direction : Direction)
    (levels : Levels) (root : DatasetId) :
    ∃ collected, store.fetchDirected direction levels root = .ok collected :=
  (descending_start store direction [root]).rounds_succeed hsound.sheltered
    (confined_start store.edges fun _ _ => Set.mem_univ _)

/-- The part that a fetch returns agrees with the whole about everything in reach. -/
theorem Excerpt.agreeWithin (hexcerpt : Excerpt store direction levels root collected)
    {stored : Collection} (hmirror : Mirror store stored) :
    collected.AgreeWithin stored direction levels root := by
  have hcollected := hexcerpt.built.sound
  intro depth id hallows hpath
  rw [hmirror.edges] at hpath
  have hcovers := hexcerpt.covers depth id hallows hpath
  constructor
  · have hhome : stored.home id = store.homes.get? id := by
      rw [Collection.home, hmirror.homes]
    rw [hhome]
    apply Option.ext
    intro home
    constructor
    · exact fun hhome => home_mem_facts.1 (hexcerpt.held hhome)
    · exact hcovers.home home
  · rw [List.perm_ext_iff_of_nodup (hcollected.nodup_neighbours direction id)
      (hmirror.sound.nodup_neighbours direction id)]
    intro next
    rw [hcollected.mem_neighbours, hmirror.sound.mem_neighbours, hmirror.relations]
    constructor
    · exact fun hmem => relation_mem_facts.1 (hexcerpt.held hmem)
    · intro hmem
      apply hcovers.relations _ hmem
      cases direction with
      | sources => exact .inr rfl
      | derived => exact .inl rfl

theorem Excerpt.edgesWithin_eq (hexcerpt : Excerpt store direction levels root collected)
    {stored : Collection} (hmirror : Mirror store stored) :
    edgesWithin collected.edges direction levels root =
      edgesWithin stored.edges direction levels root :=
  ((hexcerpt.agreeWithin hmirror).sameWithin hexcerpt.built.sound.toLockstep
    hmirror.sound.toLockstep).edgesWithin_eq

/-- The tree of the fetched part shows the stored relations in reach. -/
theorem Excerpt.shows_iff (hexcerpt : Excerpt store direction levels root collected)
    {stored : Collection} (hmirror : Mirror store stored) {relation : Relation} :
    (collected.treeBelow direction levels root).Shows relation ↔
      relation ∈ stored.relations ∧
        relation.edge ∈ edgesWithin stored.edges direction levels root := by
  have hheld : ∀ other ∈ collected.relations, other ∈ stored.relations := by
    intro other hother
    rw [hmirror.relations]
    exact relation_mem_facts.1 (hexcerpt.held hother)
  rw [hexcerpt.built.sound.shows_treeBelow_iff, ← hexcerpt.edgesWithin_eq hmirror]
  apply and_congr_left
  intro hwithin
  constructor
  · exact hheld relation
  · intro hmem
    obtain ⟨other, hother, hedge⟩ := edgesWithin_subset hwithin
    rw [← hmirror.sound.eq_of_edge_eq (hheld other hother) hmem hedge]
    exact hother

end MemoryStore

namespace Index

variable {store : MemoryStore} {direction : Direction} {id : DatasetId} {bound : Nat}

/-- The tree of a dataset is the one of the fetched part. -/
theorem getTree_eq_ok {collected : Collection}
    (hcollected : store.fetchDirected direction (.ofBound bound) id = .ok collected) :
    getTree direction id bound store =
      .ok (collected.treeBelow direction (.ofBound bound) id) := by
  have hbuilt := (MemoryStore.excerpt_of_fetchDirected hcollected).built
  rw [getTree, hcollected]
  change (collected.extractTreeToDepth id direction bound).mapError _ = _
  rw [hbuilt.sound.extractTreeToDepth_eq]
  rfl

/-- Bounded retrieval loses nothing.  From a store without a cycle the tree of any dataset,
stored or not, can be read down to any bound, and it is the tree that the whole of the store
gives: the same nodes under the same classifiers, each with the same home and the same state of
exploration, up to the order of siblings within a group. -/
theorem Visited.getTree_alike (hvisited : Visited store) (hacyclic : Acyclic store.edges)
    (direction : Direction) (id : DatasetId) (bound : Nat) :
    ∃ tree stored whole, getTree direction id bound store = .ok tree ∧
      Collection.ofSnapshot store.snapshot = .ok stored ∧
      stored.extractTreeToDepth id direction bound = .ok whole ∧ tree.Alike whole := by
  have hsound : store.Sound := ⟨hvisited.indexed, hacyclic⟩
  obtain ⟨collected, hcollected⟩ := hsound.fetchDirected_succeeds direction (.ofBound bound) id
  obtain ⟨stored, hstored, hmirror⟩ := hsound.exists_mirror
  have hexcerpt := MemoryStore.excerpt_of_fetchDirected hcollected
  have halike := (hexcerpt.agreeWithin hmirror).alike hexcerpt.built.sound hmirror.sound
  exact ⟨_, stored, _, getTree_eq_ok hcollected, hstored,
    hmirror.sound.extractTreeToDepth_eq id direction bound, halike⟩

/-- A dataset at the cut that has more lineage below it. -/
theorem getTree_alike_at_cut :
    ∃ store tree whole, Visited store ∧ Acyclic store.edges ∧
      store.relations = [⟨"nbar", .numbered 1, .numbered 2⟩, ⟨"bias", .numbered 2, .numbered 3⟩] ∧
      getTree .derived (.numbered 1) 1 store = .ok tree ∧
      (∃ stored, Collection.ofSnapshot store.snapshot = .ok stored ∧
        stored.extractTreeToDepth (.numbered 1) .derived 1 = .ok whole) ∧ tree.Alike whole := by
  let seed : Snapshot := ⟨OrderedMap.empty,
    [⟨"nbar", .numbered 1, .numbered 2⟩, ⟨"bias", .numbered 2, .numbered 3⟩]⟩
  have hvisited : Visited _ := .seeded seed rfl
  have hacyclic : Acyclic (edgesOf seed.relations) := acyclic_of_ascending (by decide)
  obtain ⟨tree, stored, whole, htree, hstored, hwhole, halike⟩ :=
    hvisited.getTree_alike hacyclic .derived (.numbered 1) 1
  exact ⟨_, tree, whole, hvisited, hacyclic, rfl, htree, ⟨stored, hstored, hwhole⟩, halike⟩

/-- In the direction of a stored cycle nothing can be fetched. -/
theorem not_fetchDirected_tangled (direction : Direction) (levels : Levels) :
    ¬ ∃ collected, tangled.fetchDirected direction levels (.numbered 1) = .ok collected := by
  rintro ⟨collected, hcollected⟩
  have hexcerpt := MemoryStore.excerpt_of_fetchDirected hcollected
  have hroot := hexcerpt.covers 0 (.numbered 1) Levels.allows_zero (.refl _)
  apply not_acyclic_tangled
  apply hexcerpt.built.sound.acyclic.mono
  rintro edge ⟨relation, hmem, rfl⟩
  exact Relation.edge_mem_edgesOf (hroot.relations relation hmem (ends_of_tangled relation hmem))

/-- The tree of a dataset on a stored cycle cannot be read. -/
theorem getTree_fails_on_cycle :
    Visited tangled ∧ ¬ ∃ tree, getTree .derived (.numbered 1) 1 tangled = .ok tree := by
  refine ⟨visited_tangled, ?_⟩
  rintro ⟨tree, htree⟩
  obtain ⟨collected, hcollected, _⟩ := bind_eq_ok.1 htree
  exact not_fetchDirected_tangled .derived (.ofBound 1) ⟨collected, hcollected⟩

end Index

end DatasetLineage
