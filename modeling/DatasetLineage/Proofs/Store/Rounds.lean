import DatasetLineage.Proofs.Store.History

/-!
# Rounds and distances

A closure fetches the stored lineage round by round, and a round goes one step further from the
given datasets than the one before, along edges in either direction.  So the frontier of a round
is the datasets at just its distance, and a limit of rounds refuses a closure exactly if some
dataset lies at the distance of the limit, as long as what is connected to the given datasets
has no cycle.  It never cuts anything off: a closure that goes through has all that is connected,
whatever the limit, and so a merge under a limit is refused, or ends as it does without one.
-/

namespace DatasetLineage

/-! ## Distances without regard to directions -/

/-- Two datasets are at the ends of an edge, whichever way it leads. -/
def Adjacent (edges : Set Edge) (id other : DatasetId) : Prop :=
  ∃ direction, Leads edges direction id other

/-- A dataset is in the part of the lineage that hangs together with the given ones. -/
def Connected (edges : Set Edge) (ids : List DatasetId) (id : DatasetId) : Prop :=
  ∃ start ∈ ids, Relation.ReflTransGen (Adjacent edges) start id

/-- Some steps along edges, either way, lead from one of the given datasets to `id`. -/
inductive ConnectedIn (edges : Set Edge) (ids : List DatasetId) : Nat → DatasetId → Prop
  | start {id : DatasetId} : id ∈ ids → ConnectedIn edges ids 0 id
  | step {hops : Nat} {id other : DatasetId} :
      ConnectedIn edges ids hops id → Adjacent edges id other →
        ConnectedIn edges ids (hops + 1) other

/-- The edges that hang together with the given datasets. -/
def connectedPart (edges : Set Edge) (ids : List DatasetId) : Set Edge :=
  {edge | edge ∈ edges ∧ Connected edges ids edge.source}

/-- A dataset can be reached from the given ones in so many steps, and not in fewer. -/
def AtDistance (edges : Set Edge) (ids : List DatasetId) (hops : Nat) (id : DatasetId) : Prop :=
  ConnectedIn edges ids hops id ∧ ∀ fewer < hops, ¬ ConnectedIn edges ids fewer id

section Distance

variable {edges : Set Edge} {ids : List DatasetId} {hops : Nat} {id other : DatasetId}

theorem adjacent_edgesOf {relations : List Relation} :
    Adjacent (edgesOf relations) id other ↔ ∃ relation ∈ relations,
      (relation.source = id ∧ relation.derived = other) ∨
        (relation.derived = id ∧ relation.source = other) := by
  constructor
  · rintro ⟨direction, relation, hmem, hedge⟩
    cases direction with
    | sources =>
        cases hedge
        exact ⟨relation, hmem, .inr ⟨rfl, rfl⟩⟩
    | derived =>
        cases hedge
        exact ⟨relation, hmem, .inl ⟨rfl, rfl⟩⟩
  · rintro ⟨relation, hmem, ⟨rfl, rfl⟩ | ⟨rfl, rfl⟩⟩
    · exact ⟨.derived, relation, hmem, rfl⟩
    · exact ⟨.sources, relation, hmem, rfl⟩

theorem connected_iff : Connected edges ids id ↔ ∃ hops, ConnectedIn edges ids hops id := by
  constructor
  · rintro ⟨start, hstart, hpath⟩
    induction hpath with
    | refl => exact ⟨0, .start hstart⟩
    | tail _ hstep ih =>
        obtain ⟨hops, hconnected⟩ := ih
        exact ⟨hops + 1, hconnected.step hstep⟩
  · rintro ⟨hops, hconnected⟩
    induction hconnected with
    | start hmem => exact ⟨_, hmem, .refl⟩
    | step _ hstep ih =>
        obtain ⟨start, hstart, hpath⟩ := ih
        exact ⟨start, hstart, hpath.tail hstep⟩

theorem Connected.adjacent (hconnected : Connected edges ids id) (hstep : Adjacent edges id other) :
    Connected edges ids other := by
  obtain ⟨start, hstart, hpath⟩ := hconnected
  exact ⟨start, hstart, hpath.tail hstep⟩

theorem connected_of_mem (hmem : id ∈ ids) : Connected edges ids id :=
  ⟨id, hmem, .refl⟩

/-- No edge leaves what hangs together with the given datasets. -/
theorem enclosed_connectedPart (edges : Set Edge) (ids : List DatasetId) :
    Enclosed edges (connectedPart edges ids) {id | Connected edges ids id} where
  subset := fun _ hedge => hedge.1
  closed := by
    intro edge hedge htouched
    have hsource : Connected edges ids edge.source := by
      cases htouched with
      | inl hsource => exact hsource
      | inr hderived => exact hderived.adjacent ⟨.sources, hedge⟩
    exact ⟨⟨hedge, hsource⟩, hsource, hsource.adjacent ⟨.derived, hedge⟩⟩

/-- A part around the given datasets that no edge leaves has all that hangs together with
them. -/
theorem Enclosed.connectedPart_subset {part : Set Edge} {inside : Set DatasetId}
    (henclosed : Enclosed edges part inside) (hids : ∀ id ∈ ids, id ∈ inside) :
    connectedPart edges ids ⊆ part := by
  have hinside : ∀ id, Connected edges ids id → id ∈ inside := by
    rintro id ⟨start, hstart, hpath⟩
    induction hpath with
    | refl => exact hids start hstart
    | tail _ hstep ih =>
        obtain ⟨direction, hedge⟩ := hstep
        cases direction with
        | sources => exact (henclosed.closed _ hedge (.inr ih)).2.1
        | derived => exact (henclosed.closed _ hedge (.inl ih)).2.2
  rintro edge ⟨hedge, hsource⟩
  exact (henclosed.closed edge hedge (.inl (hinside _ hsource))).1

theorem atDistance_zero : AtDistance edges ids 0 id ↔ id ∈ ids := by
  constructor
  · rintro ⟨⟨hmem⟩, _⟩
    exact hmem
  · intro hmem
    exact ⟨.start hmem, fun _ hfewer => absurd hfewer (Nat.not_lt_zero _)⟩

/-- A dataset that is connected lies at some distance. -/
theorem ConnectedIn.atDistance (hconnected : ConnectedIn edges ids hops id) :
    ∃ least ≤ hops, AtDistance edges ids least id := by
  classical
  have hsome : ∃ hops, ConnectedIn edges ids hops id := ⟨hops, hconnected⟩
  exact ⟨Nat.find hsome, Nat.find_min' hsome hconnected, Nat.find_spec hsome,
    fun _ hfewer => Nat.find_min hsome hfewer⟩

/-- The datasets one step further are the neighbours of those at a distance that are not
closer. -/
theorem atDistance_succ :
    AtDistance edges ids (hops + 1) id ↔
      (∃ before, AtDistance edges ids hops before ∧ Adjacent edges before id) ∧
        ∀ fewer ≤ hops, ¬ ConnectedIn edges ids fewer id := by
  constructor
  · rintro ⟨hconnected, hleast⟩
    refine ⟨?_, fun fewer hfewer => hleast fewer (Nat.lt_succ_of_le hfewer)⟩
    cases hconnected with
    | step hbefore hstep =>
        refine ⟨_, ⟨hbefore, ?_⟩, hstep⟩
        intro fewer hfewer hcloser
        exact hleast (fewer + 1) (Nat.succ_lt_succ hfewer) (hcloser.step hstep)
  · rintro ⟨⟨before, hbefore, hstep⟩, hleast⟩
    exact ⟨hbefore.1.step hstep, fun fewer hfewer => hleast fewer (Nat.le_of_lt_succ hfewer)⟩

/-- Where nothing lies at some distance, nothing lies further away. -/
theorem not_atDistance_of_le {near : Nat} (hnone : ∀ id, ¬ AtDistance edges ids near id)
    (hfar : near ≤ hops) : ¬ AtDistance edges ids hops id := by
  induction hfar generalizing id with
  | refl => exact hnone id
  | step _ ih =>
      intro hdistance
      obtain ⟨⟨before, hbefore, _⟩, _⟩ := atDistance_succ.1 hdistance
      exact ih hbefore

end Distance

namespace MemoryStore

variable {store : MemoryStore} {ids : List DatasetId} {batch collected : Collection}
  {state next : FetchState} {limit : Nat}

/-! ## What a round meets -/

/-- The next frontier is the neighbours of this one that no round has fetched. -/
theorem mem_frontier_of_advance (hbatch : store.fetch state.frontier = .ok batch)
    (hnext : state.advance (fun _ => true) batch = .ok next) {id : DatasetId} :
    id ∈ next.frontier ↔
      (∃ before ∈ state.frontier, Adjacent store.edges before id) ∧ ¬ Met state id := by
  have hfetched := fetched_of_fetch hbatch
  have hknown : id ∈ batch.datasetIds ↔ ∃ relation ∈ store.relations,
      (relation.source ∈ state.frontier ∨ relation.derived ∈ state.frontier) ∧
        (id = relation.source ∨ id = relation.derived) := by
    rw [Collection.datasetIds, ← OrderedMap.contains_iff_mem_keys]
    change batch.contains id = true ↔ _
    simp only [known_of_fetch hbatch, hfetched.mem_relations, and_assoc]
  have hfresh : next.seen.contains id = false ↔ ¬ Met state id := by
    rw [← Bool.not_eq_true, seen_of_advance hnext]
  rw [(advance_eq_ok hnext).2.2, FetchState.nextFrontier, List.mem_filter, hknown]
  simp only [Bool.and_true, Bool.not_eq_true', hfresh, edges, adjacent_edgesOf]
  refine and_congr_left fun hnew => ?_
  constructor
  · rintro ⟨relation, hmem, htouched, hend⟩
    have hout : id ∉ state.frontier := fun hin => hnew (.inr hin)
    rcases htouched with hsource | hderived
    · exact ⟨_, hsource, relation, hmem, .inl ⟨rfl, by grind⟩⟩
    · exact ⟨_, hderived, relation, hmem, .inr ⟨rfl, by grind⟩⟩
  · rintro ⟨before, hbefore, relation, hmem, ⟨rfl, rfl⟩ | ⟨rfl, rfl⟩⟩
    · exact ⟨relation, hmem, .inl hbefore, .inr rfl⟩
    · exact ⟨relation, hmem, .inr hbefore, .inl rfl⟩

/-! ## Rounds go by distance -/

/-- What rounds for everything have come to: they have fetched all that lies closer than their
number, the frontier is what lies at this distance, and nothing was collected from anywhere
else. -/
structure Levelled (store : MemoryStore) (ids : List DatasetId) (state : FetchState) : Prop
    extends Gathered store state where
  seen : ∀ id, state.seen.contains id = true ↔
    ∃ hops < state.rounds, ConnectedIn store.edges ids hops id
  frontier : ∀ id, id ∈ state.frontier ↔ AtDistance store.edges ids state.rounds id
  touched : ∀ relation ∈ state.collected.relations,
    state.seen.contains relation.source = true ∨ state.seen.contains relation.derived = true
  located : ∀ id home, state.collected.home id = some home → state.seen.contains id = true

theorem levelled_start (store : MemoryStore) (ids : List DatasetId) :
    Levelled store ids { frontier := ids } where
  toGathered := gathered_start store ids
  seen := by
    intro id
    constructor
    · intro hseen
      exact absurd hseen not_seen_at_start
    · rintro ⟨hops, hfewer, _⟩
      exact absurd hfewer (Nat.not_lt_zero hops)
  frontier := fun _ => atDistance_zero.symm
  touched := fun _ hmem => nomatch hmem
  located := fun _ _ hhome => nomatch hhome

theorem Levelled.met_iff (hlevelled : Levelled store ids state) {id : DatasetId} :
    Met state id ↔ ∃ hops ≤ state.rounds, ConnectedIn store.edges ids hops id := by
  rw [Met, hlevelled.seen, hlevelled.frontier]
  constructor
  · rintro (⟨hops, hfewer, hconnected⟩ | ⟨hconnected, _⟩)
    · exact ⟨hops, hfewer.le, hconnected⟩
    · exact ⟨_, le_rfl, hconnected⟩
  · rintro ⟨hops, hwithin, hconnected⟩
    obtain ⟨least, hleast, hdistance⟩ := hconnected.atDistance
    rcases (hleast.trans hwithin).lt_or_eq with hless | rfl
    · exact .inl ⟨least, hless, hdistance.1⟩
    · exact .inr hdistance

theorem Levelled.advance (hlevelled : Levelled store ids state)
    (hbatch : store.fetch state.frontier = .ok batch)
    (hnext : state.advance (fun _ => true) batch = .ok next) : Levelled store ids next := by
  have hfetched := fetched_of_fetch hbatch
  have hfacts := (facts_of_advance hlevelled.built hbatch hnext).2
  have hrounds : next.rounds = state.rounds + 1 := rounds_of_advance hnext
  constructor
  · exact hlevelled.toGathered.advance hbatch hnext
  · intro id
    simp only [seen_of_advance hnext, hlevelled.met_iff, hrounds, Nat.lt_succ_iff]
  · intro id
    rw [mem_frontier_of_advance hbatch hnext, hrounds, atDistance_succ, hlevelled.met_iff]
    simp only [hlevelled.frontier, not_exists, not_and]
  · intro relation hmem
    rw [← Collection.relation_mem_facts, hfacts] at hmem
    simp only [seen_of_advance hnext]
    rcases hmem with hold | hnew
    · exact (hlevelled.touched relation hold).imp .inl .inl
    · exact ((hfetched.mem_relations relation).1 hnew).2.imp .inr .inr
  · intro id home hhome
    rw [← Collection.home_mem_facts, hfacts] at hhome
    rw [seen_of_advance hnext]
    rcases hhome with hold | hnew
    · exact .inl (hlevelled.located id home hold)
    · exact .inr ((hfetched.home_iff id home).1 hnew).1

/-- When the frontier is exhausted, what is connected has been fetched. -/
theorem Levelled.seen_iff_connected (hlevelled : Levelled store ids state)
    (hdone : state.frontier = []) {id : DatasetId} :
    state.seen.contains id = true ↔ Connected store.edges ids id := by
  have hnone : ∀ id, ¬ AtDistance store.edges ids state.rounds id := by
    intro id hdistance
    rw [← hlevelled.frontier, hdone] at hdistance
    cases hdistance
  rw [hlevelled.seen, connected_iff]
  constructor
  · rintro ⟨hops, _, hconnected⟩
    exact ⟨hops, hconnected⟩
  · rintro ⟨hops, hconnected⟩
    obtain ⟨least, _, hdistance⟩ := hconnected.atDistance
    refine ⟨least, not_le.1 fun hfar => ?_, hdistance.1⟩
    exact not_atDistance_of_le hnone hfar hdistance

/-! ## Rounds until nothing is left -/

/-- All stored lineage that is connected to some datasets, and nothing else. -/
structure Component (store : MemoryStore) (ids : List DatasetId) (collected : Collection) :
    Prop where
  built : collected.Built
  mem_relations : ∀ relation, relation ∈ collected.relations ↔
    relation ∈ store.relations ∧ Connected store.edges ids relation.source
  home_iff : ∀ id home, collected.home id = some home ↔
    store.homes.get? id = some home ∧ Connected store.edges ids id

theorem Levelled.component (hlevelled : Levelled store ids state) (hdone : state.frontier = []) :
    Component store ids state.collected := by
  have hinside : ∀ id, state.seen.contains id = true ↔ Connected store.edges ids id :=
    fun _ => hlevelled.seen_iff_connected hdone
  constructor
  · exact hlevelled.built
  · intro relation
    rw [← hinside]
    constructor
    · intro hmem
      have hstored : relation ∈ store.relations := relation_mem_facts.1 (hlevelled.held hmem)
      refine ⟨hstored, ?_⟩
      rcases hlevelled.touched relation hmem with hsource | hderived
      · exact hsource
      · rw [hinside] at hderived ⊢
        exact hderived.adjacent (adjacent_edgesOf.2 ⟨relation, hstored, .inr ⟨rfl, rfl⟩⟩)
    · rintro ⟨hstored, hsource⟩
      exact hlevelled.relations relation hstored (.inl hsource)
  · intro id home
    rw [← hinside]
    constructor
    · intro hhome
      exact ⟨home_mem_facts.1 (hlevelled.held hhome), hlevelled.located id home hhome⟩
    · rintro ⟨hstored, hseen⟩
      exact hlevelled.homes id home hseen hstored

/-- Without a limit the rounds end with all that is connected. -/
theorem Levelled.rounds_give_component (hlevelled : Levelled store ids state)
    (hresult : store.fetchClosureFrom 0 state = .ok collected) :
    Component store ids collected := by
  fun_induction fetchClosureFrom store 0 state with
  | case1 state hdone =>
      cases hresult
      exact hlevelled.component hdone
  | case2 => cases hresult
  | case3 => cases hresult
  | case4 => cases hresult
  | case5 state _ _ batch hbatch next hnext ih => exact ih (hlevelled.advance hbatch hnext) hresult

section Sheltered

variable {part : Set Edge} {inside : Set DatasetId}

/-- Rounds that have not passed a limit are refused by it if a dataset lies at its distance, and
otherwise go on as they do without one. -/
theorem Levelled.rounds_limited (hlevelled : Levelled store ids state)
    (hsheltered : Sheltered store part inside) (hconfined : Confined part inside state)
    (hlimit : limit ≠ 0) (hwithin : state.rounds ≤ limit) :
    (∃ id, AtDistance store.edges ids limit id) ∧
        store.fetchClosureFrom limit state = .error (.refused (.tooManyRounds limit)) ∨
      (∀ id, ¬ AtDistance store.edges ids limit id) ∧
        store.fetchClosureFrom limit state = store.fetchClosureFrom 0 state := by
  fun_induction fetchClosureFrom store limit state with
  | case1 state hdone =>
      refine .inr ⟨fun id => not_atDistance_of_le ?_ hwithin, (fetchClosureFrom_of_done hdone).symm⟩
      intro near hnear
      rw [← hlevelled.frontier, hdone] at hnear
      cases hnear
  | case2 state hfrontier hreached =>
      obtain ⟨id, hid⟩ := List.exists_mem_of_ne_nil _ hfrontier
      rw [hlevelled.frontier, hwithin.antisymm hreached.2] at hid
      exact .inl ⟨⟨id, hid⟩, rfl⟩
  | case3 state _ _ failure hfailed =>
      obtain ⟨batch, hbatch⟩ := hsheltered.fetch_succeeds hconfined
      rw [hbatch] at hfailed
      cases hfailed
  | case4 state _ _ batch hbatch failure hfailed =>
      obtain ⟨next, hnext⟩ :=
        hsheltered.advance_succeeds hconfined hlevelled.toGathered hbatch _
      rw [hnext] at hfailed
      cases hfailed
  | case5 state hfrontier hgoes batch hbatch next hnext ih =>
      rw [fetchClosureFrom_of_advance hfrontier (fun h => h.1 rfl) hbatch hnext]
      apply ih (hlevelled.advance hbatch hnext)
        (hconfined.advance hsheltered hlevelled.toGathered hbatch hnext)
      rw [rounds_of_advance hnext]
      exact not_le.1 fun hpassed => hgoes ⟨hlimit, hpassed⟩

/-- In a part without a cycle, a limit of rounds refuses the closure of some datasets exactly if
some dataset lies at its distance, and otherwise makes no difference. -/
theorem Sheltered.fetchClosure_limited (hsheltered : Sheltered store part inside)
    (hids : ∀ id ∈ ids, id ∈ inside) (hlimit : limit ≠ 0) :
    (∃ id, AtDistance store.edges ids limit id) ∧
        store.fetchClosure limit ids = .error (.refused (.tooManyRounds limit)) ∨
      (∀ id, ¬ AtDistance store.edges ids limit id) ∧
        store.fetchClosure limit ids = store.fetchClosure 0 ids :=
  (levelled_start store ids).rounds_limited hsheltered (confined_start part hids) hlimit
    (Nat.zero_le limit)

end Sheltered

/-- A limit of rounds refuses a closure, or makes no difference.  Here the stored lineage may
have cycles: rounds that come across one fail in the same way with a limit and without. -/
theorem fetchClosureFrom_limited (store : MemoryStore) (limit : Nat) (state : FetchState) :
    store.fetchClosureFrom limit state = .error (.refused (.tooManyRounds limit)) ∨
      store.fetchClosureFrom limit state = store.fetchClosureFrom 0 state := by
  fun_induction fetchClosureFrom store limit state with
  | case1 state hdone => exact .inr (fetchClosureFrom_of_done hdone).symm
  | case2 state hfrontier hreached => exact .inl rfl
  | case3 state hfrontier _ failure hfailed =>
      exact .inr (fetchClosureFrom_of_failed_fetch hfrontier (fun h => h.1 rfl) hfailed).symm
  | case4 state hfrontier _ batch hbatch failure hfailed =>
      exact .inr
        (fetchClosureFrom_of_failed_advance hfrontier (fun h => h.1 rfl) hbatch hfailed).symm
  | case5 state hfrontier _ batch hbatch next hnext ih =>
      rw [fetchClosureFrom_of_advance hfrontier (fun h => h.1 rfl) hbatch hnext]
      exact ih

end MemoryStore

namespace Index

variable {store : MemoryStore} {collection : Collection} {allowUpdates : Bool}

def unlimited (settings : StoreSettings) : StoreSettings :=
  { settings with maxFetchRounds := 0 }

/-- A limit of rounds refuses a merge before it is planned, or makes no difference to the plan. -/
theorem prepare_limited (settings : StoreSettings) :
    prepare settings collection allowUpdates store =
        .error (.refused (.tooManyRounds settings.maxFetchRounds)) ∨
      prepare settings collection allowUpdates store =
        prepare (unlimited settings) collection allowUpdates store := by
  rcases store.fetchClosureFrom_limited settings.maxFetchRounds
    { frontier := touched collection } with hfar | hsame
  · -- The datasets are looked for before the closure, and may be missing in either case.
    cases hdemanded : settings.requireKnownDatasets with
    | false =>
        rw [prepare, hdemanded, MemoryStore.fetchClosure, hfar]
        exact .inl rfl
    | true =>
        cases hknown : requireKnown store (touched collection) with
        | error failure =>
            simp only [prepare, unlimited, hdemanded, hknown, if_true]
            exact .inr rfl
        | ok _ =>
            simp only [prepare, hdemanded, hknown, MemoryStore.fetchClosure, hfar, if_true]
            exact .inl rfl
  · rw [prepare, MemoryStore.fetchClosure, hsame]
    exact .inr rfl

/-- Stored lineage comes whole or not at all.  As long as what hangs together with the given
datasets has no cycle, a closure without a limit of rounds has exactly the stored relations and
homes of that, and a limit refuses it exactly if some dataset lies at the distance of the limit,
and else changes nothing.  Where it has a cycle, every closure fails.  In any case a merge under
a limit is refused and leaves the store alone, or does what it does without one. -/
theorem Visited.fetchClosure_whole_or_refused (hvisited : Visited store) (ids : List DatasetId) :
    (Acyclic (connectedPart store.edges ids) →
      ∃ collected, store.fetchClosure 0 ids = .ok collected ∧
        (collected.relations.map Relation.edge).Nodup ∧
        (∀ relation, relation ∈ collected.relations ↔
          relation ∈ store.relations ∧ Connected store.edges ids relation.source) ∧
        (∀ id home, collected.home id = some home ↔
          store.homes.get? id = some home ∧ Connected store.edges ids id) ∧
        ∀ limit ≠ 0,
          ((∃ failure, store.fetchClosure limit ids = .error failure) ↔
            ∃ id, AtDistance store.edges ids limit id) ∧
          (∀ failure, store.fetchClosure limit ids = .error failure →
            failure = .refused (.tooManyRounds limit)) ∧
          ∀ other, store.fetchClosure limit ids = .ok other → other = collected) ∧
      (¬ Acyclic (connectedPart store.edges ids) →
        ∀ limit, ∃ failure, store.fetchClosure limit ids = .error failure) ∧
      ∀ settings collection allowUpdates,
        merge settings collection allowUpdates store =
            .error (.refused (.tooManyRounds settings.maxFetchRounds)) store ∨
          merge settings collection allowUpdates store =
            merge (unlimited settings) collection allowUpdates store := by
  refine ⟨?_, ?_, ?_⟩
  · intro hacyclic
    have hsheltered : store.Sheltered (connectedPart store.edges ids)
        {id | Connected store.edges ids id} :=
      ⟨hvisited.indexed, enclosed_connectedPart store.edges ids, hacyclic⟩
    have hids : ∀ id ∈ ids, id ∈ {id | Connected store.edges ids id} :=
      fun _ => connected_of_mem
    obtain ⟨collected, hcollected⟩ := hsheltered.fetchClosure_succeeds hids
    have hcomponent := (MemoryStore.levelled_start store ids).rounds_give_component hcollected
    refine ⟨collected, hcollected, hcomponent.built.sound.distinct, hcomponent.mem_relations,
      hcomponent.home_iff, ?_⟩
    intro limit hlimit
    rcases hsheltered.fetchClosure_limited hids hlimit with ⟨hfar, hrefused⟩ | ⟨hnear, hsame⟩
    · rw [hrefused]
      refine ⟨⟨fun _ => hfar, fun _ => ⟨_, rfl⟩⟩, ?_, fun _ hother => nomatch hother⟩
      intro failure hfailure
      exact (Except.error.inj hfailure).symm
    · have hwhole : store.fetchClosure limit ids = .ok collected := hsame.trans hcollected
      rw [hwhole]
      refine ⟨⟨?_, fun ⟨id, hfar⟩ => absurd hfar (hnear id)⟩, ?_, ?_⟩
      · rintro ⟨_, hfailure⟩
        cases hfailure
      · intro failure hfailure
        cases hfailure
      · intro other hother
        exact (Except.ok.inj hother).symm
  · intro hcyclic limit
    cases hfetched : store.fetchClosure limit ids with
    | error failure => exact ⟨failure, rfl⟩
    | ok collected =>
        obtain ⟨inside, hclosure⟩ := MemoryStore.closure_of_fetchClosure hfetched
        have hpart := hclosure.enclosed.connectedPart_subset hclosure.covers
        exact absurd (hclosure.built.sound.acyclic.mono hpart) hcyclic
  · intro settings collection allowUpdates
    rw [merge_eq, merge_eq]
    rcases prepare_limited settings with hrefused | hsame
    · exact .inl (carryOut_of_error hrefused)
    · rw [hsame]
      exact .inr rfl

def row : List Relation :=
  [⟨"nbar", .numbered 1, .numbered 2⟩, ⟨"bias", .numbered 2, .numbered 3⟩]

theorem connectedIn_row_zero : ConnectedIn (edgesOf row) [.numbered 1] 0 (.numbered 1) :=
  .start List.mem_cons_self

theorem connectedIn_row_one : ConnectedIn (edgesOf row) [.numbered 1] 1 (.numbered 2) :=
  connectedIn_row_zero.step ⟨.derived, _, List.mem_cons_self, rfl⟩

theorem connectedIn_row_two : ConnectedIn (edgesOf row) [.numbered 1] 2 (.numbered 3) :=
  connectedIn_row_one.step ⟨.derived, _, List.mem_cons_of_mem _ List.mem_cons_self, rfl⟩

/-- The last dataset of the row is two steps from the first one. -/
theorem atDistance_row_two : AtDistance (edgesOf row) [.numbered 1] 2 (.numbered 3) := by
  refine ⟨connectedIn_row_two, ?_⟩
  intro fewer hfewer hcloser
  match fewer, hfewer, hcloser with
  | 0, _, .start hmem => exact absurd hmem (by decide)
  | 1, _, .step (.start hmem) hstep =>
      cases List.mem_singleton.1 hmem
      have hends := adjacent_edgesOf.1 hstep
      revert hends
      decide

/-- No dataset is three steps from the first one. -/
theorem not_atDistance_row_three (id : DatasetId) :
    ¬ AtDistance (edgesOf row) [.numbered 1] 3 id := by
  rintro ⟨hconnected, hleast⟩
  cases hconnected with
  | step _ hstep =>
      obtain ⟨relation, hmem, hends⟩ := adjacent_edgesOf.1 hstep
      have hid : id = .numbered 1 ∨ id = .numbered 2 ∨ id = .numbered 3 := by
        simp only [row, List.mem_cons, List.not_mem_nil, or_false] at hmem
        grind
      rcases hid with rfl | rfl | rfl
      · exact hleast 0 (by decide) connectedIn_row_zero
      · exact hleast 1 (by decide) connectedIn_row_one
      · exact hleast 2 (by decide) connectedIn_row_two

/-- Of three datasets in a row, two rounds from the first see only two, and three see all. -/
theorem fetchClosure_whole_or_refused_of_chain :
    ∃ store collected, Visited store ∧ Acyclic (connectedPart store.edges [.numbered 1]) ∧
      store.relations = [⟨"nbar", .numbered 1, .numbered 2⟩, ⟨"bias", .numbered 2, .numbered 3⟩] ∧
      AtDistance store.edges [.numbered 1] 2 (.numbered 3) ∧
      store.fetchClosure 2 [.numbered 1] = .error (.refused (.tooManyRounds 2)) ∧
      store.fetchClosure 3 [.numbered 1] = .ok collected ∧
      ∀ relation, relation ∈ collected.relations ↔ relation ∈ store.relations := by
  have hvisited : Visited _ := .seeded ⟨OrderedMap.empty, row⟩ rfl
  have hacyclic : Acyclic (edgesOf row) := acyclic_of_ascending (by decide)
  have hpart := hacyclic.mono (enclosed_connectedPart (edgesOf row) [.numbered 1]).subset
  obtain ⟨collected, hwhole, _, hrelations, _, hlimited⟩ :=
    (hvisited.fetchClosure_whole_or_refused [.numbered 1]).1 hpart
  refine ⟨_, collected, hvisited, hpart, rfl, atDistance_row_two, ?_, ?_, ?_⟩
  · obtain ⟨failure, hfailure⟩ := (hlimited 2 (by decide)).1.2 ⟨_, atDistance_row_two⟩
    rw [hfailure, (hlimited 2 (by decide)).2.1 failure hfailure]
  · obtain ⟨hfails, _, hsame⟩ := hlimited 3 (by decide)
    cases hresult : MemoryStore.fetchClosure _ 3 [.numbered 1] with
    | error failure =>
        obtain ⟨id, hdistance⟩ := hfails.1 ⟨failure, hresult⟩
        exact absurd hdistance (not_atDistance_row_three id)
    | ok other => rw [hsame other hresult]
  · intro relation
    rw [hrelations]
    refine and_iff_left_of_imp fun hmem => ?_
    rcases List.mem_cons.1 hmem with rfl | hmem
    · exact connected_iff.2 ⟨0, connectedIn_row_zero⟩
    · cases List.mem_singleton.1 hmem
      exact connected_iff.2 ⟨1, connectedIn_row_one⟩

/-- The lineage that hangs together with a dataset on a stored cycle cannot be fetched. -/
theorem fetchClosure_fails_on_cycle :
    Visited tangled ∧
      ¬ ∃ collected, tangled.fetchClosure 0 [.numbered 1] = .ok collected := by
  refine ⟨visited_tangled, ?_⟩
  rintro ⟨collected, hcollected⟩
  obtain ⟨inside, hclosure⟩ := MemoryStore.closure_of_fetchClosure hcollected
  apply not_acyclic_tangled
  apply hclosure.built.sound.acyclic.mono
  rintro edge ⟨relation, hmem, rfl⟩
  have hinside : .numbered 1 ∈ inside := hclosure.covers _ List.mem_cons_self
  apply Relation.edge_mem_edgesOf
  apply hclosure.relations relation hmem
  rcases ends_of_tangled relation hmem with hsource | hderived
  · exact .inl (hsource ▸ hinside)
  · exact .inr (hderived ▸ hinside)

end Index

end DatasetLineage
