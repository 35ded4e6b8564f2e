import DatasetLineage.Proofs.Store.Writing

/-!
# Histories of a store

Whatever an index is asked to do, and whether it succeeds or fails, its store keeps the
positions in step and no dataset is related to itself.  A merge is checked against all stored
lineage connected to it, and no stored relation leaves that part, so a merge that is checked in
full closes no cycle anywhere in the store, and the other operations add no relations.  What is
not checked is a cycle that a strict merge is given: a collection which a failed merge has left
behind can have one, and it is stored.  A store without a cycle can be restored from its
snapshot, and one with a cycle cannot.
-/

namespace DatasetLineage

namespace Index

variable {store : MemoryStore} {collection : Collection} {allowUpdates : Bool} {diff : Diff}

/-! ## Operations -/

/-- What an index can be asked to do to its store. -/
inductive Operation where
  | add (tree : Tree) (bound : Nat) (allowUpdates : Bool)
  | merge (collection : Collection) (allowUpdates : Bool)
  | setHome (home : String) (ids : List DatasetId) (allowUpdates : Bool)
  | clearHome (ids : List DatasetId)
  | remove (id : DatasetId) (direction : Direction) (bound : Nat)

namespace Operation

/-- The store after an operation, whether the operation succeeds or fails. -/
def after (settings : StoreSettings) (store : MemoryStore) : Operation → MemoryStore
  | .add tree bound allowUpdates => leaves (Index.add settings tree bound allowUpdates) store
  | .merge collection allowUpdates =>
      leaves (Index.merge settings collection allowUpdates) store
  | .setHome home ids allowUpdates =>
      leaves (Index.setHome settings home ids allowUpdates) store
  | .clearHome ids => leaves (Index.clearHome ids) store
  | .remove id direction bound => leaves (Index.remove id direction bound) store

/-- A collection that is merged comes from merges, be it one that a failed merge has left
behind. -/
def Possible : Operation → Prop
  | .merge collection _ => collection.Kept
  | _ => True

/-- In addition, no collection with a cycle of its own is merged without updates. -/
def FullyChecked : Operation → Prop
  | .merge collection allowUpdates => Index.FullyChecked collection allowUpdates
  | _ => True

theorem FullyChecked.possible {operation : Operation} (hchecked : operation.FullyChecked) :
    operation.Possible := by
  cases operation with
  | merge collection allowUpdates => exact hchecked.1
  | add tree bound allowUpdates => trivial
  | setHome home ids allowUpdates => trivial
  | clearHome ids => trivial
  | remove id direction bound => trivial

end Operation

/-! ## What an operation does -/

/-- What is about to be added closes no cycle in the store. -/
theorem acyclic_of_prepare {settings : StoreSettings} (hacyclic : Acyclic store.edges)
    (hchecked : FullyChecked collection allowUpdates)
    (hresult : prepare settings collection allowUpdates store = .ok diff) :
    Acyclic (store.edges ∪ edgesOf diff.relationsToAdd) := by
  obtain ⟨existing, inside, hclosure, hplan⟩ := exists_closure_of_prepare hresult
  -- The closure was started from every dataset that the collection knows.
  exact acyclic_of_enclosed hclosure.built.sound hchecked hplan hclosure.enclosed
    subset_rfl hclosure.covers hacyclic

/-- A collection that a store has nothing about is compared with nothing. -/
theorem prepare_of_nothing (hnothing : store.fetch (touched collection) = .ok Collection.empty)
    (allowUpdates : Bool) :
    prepare {} collection allowUpdates store = plan collection Collection.empty allowUpdates := by
  change (do plan collection (← store.fetchClosure 0 (touched collection)) allowUpdates) = _
  rw [MemoryStore.fetchClosure_of_nothing hnothing]
  rfl

/-- A diff that a store can take, and that relates no dataset to itself.  If the operation is
checked in full, it adds no cycle. -/
structure Admissible (store : MemoryStore) (operation : Operation) (diff : Diff) : Prop where
  writable : store.Writable diff
  loopless : ∀ relation ∈ diff.relationsToAdd, relation.source ≠ relation.derived
  acyclic : operation.FullyChecked → Acyclic store.edges →
    Acyclic (store.edges ∪ edgesOf diff.relationsToAdd)

/-- What an operation can do to a store. -/
inductive Effect (store : MemoryStore) (operation : Operation) : MemoryStore → Prop
  | unchanged : Effect store operation store
  | written {diff : Diff} : Admissible store operation diff →
      Effect store operation (store.written diff)
  | forgotten (ids : List DatasetId) :
      Effect store operation (leaves (Index.clearHome ids) store)
  | removed (doomed : List Edge) :
      Effect store operation (leaves (MemoryStore.removeRelations doomed) store)

theorem admissible_of_prepare {settings : StoreSettings} {operation : Operation}
    (hkept : collection.Kept)
    (hchecked : operation.FullyChecked → FullyChecked collection allowUpdates)
    (hresult : prepare settings collection allowUpdates store = .ok diff) :
    Admissible store operation diff where
  writable := writable_of_prepare hkept.lockstep hresult
  loopless := by
    intro relation hadded
    have hrevises := revises_of_prepare hkept.lockstep hresult
    exact hkept.loopless relation ((hrevises.relationsToAdd relation).1 hadded).1
  acyclic := by
    intro hfully hacyclic
    exact acyclic_of_prepare hacyclic (hchecked hfully) hresult

theorem admissible_of_prepareHomes {settings : StoreSettings} {operation : Operation}
    {home : String} {ids : List DatasetId}
    (hresult : prepareHomes settings home ids allowUpdates store = .ok diff) :
    Admissible store operation diff := by
  have hnothing := relationsToAdd_of_prepareHomes hresult
  constructor
  · exact writable_of_prepareHomes hresult
  · rw [hnothing]
    exact List.forall_mem_nil _
  · intro _ hacyclic
    rwa [hnothing, edgesOf_nil, Set.union_empty]

/-- A plan is carried out as a whole or not at all. -/
theorem effect_carryOut {α : Type} {activity : Activity} {planned : Except Failure Diff}
    {report : Diff → α} {operation : Operation} (hindexed : store.Indexed)
    (hplanned : ∀ diff, planned = .ok diff → Admissible store operation diff) :
    Effect store operation (leaves (carryOut activity planned report) store) :=
  leaves_carryOut hindexed (fun diff hresult => (hplanned diff hresult).writable) .unchanged
    fun diff hresult => .written (hplanned diff hresult)

/-- The homes of some datasets are forgotten, and counted. -/
theorem clearHome_eq_ok (ids : List DatasetId) (store : MemoryStore) :
    ∃ homes, clearHome ids store = .ok (store.homes.among ids).card { store with homes } ∧
      ∀ id, homes.get? id = if id ∈ ids then none else store.homes.get? id := by
  rw [clearHome]
  induction ids generalizing store with
  | nil => exact ⟨store.homes, rfl, fun _ => rfl⟩
  | cons id rest ih =>
      obtain ⟨homes, hrest, hhomes⟩ := ih { store with homes := store.homes.erase id }
      refine ⟨homes, ?_, ?_⟩
      · rw [OrderedMap.card_among_cons]
        change EStateM.bind (MemoryStore.clearHomes rest) _
          { store with homes := store.homes.erase id } = _
        rw [EStateM.bind, hrest]
        rfl
      · intro other
        rw [hhomes, OrderedMap.get?_erase]
        by_cases heq : id = other
        · simp [heq]
        · simp [heq, Ne.symm heq, rank_eq_iff]

/-- Forgetting homes changes nothing but homes. -/
theorem leaves_clearHome {property : MemoryStore → Prop}
    (hhomes : ∀ homes, property { store with homes }) (ids : List DatasetId) :
    property (leaves (clearHome ids) store) := by
  obtain ⟨homes, hresult, _⟩ := clearHome_eq_ok ids store
  rw [leaves, hresult]
  exact hhomes homes

/-- A removal removes some edges, if it does anything. -/
theorem leaves_remove {property : MemoryStore → Prop} (hstore : property store)
    (hremoved : ∀ doomed, property (leaves (MemoryStore.removeRelations doomed) store))
    (id : DatasetId) (direction : Direction) (bound : Nat) :
    property (leaves (remove id direction bound) store) := by
  rw [remove, leaves_get_bind]
  apply leaves_ofExcept_bind hstore
  intro stored _
  by_cases hnone : (edgesBelow stored direction (.ofBound bound)
      (without stored.datasetIds id) [id]).isEmpty = true
  · simp only [hnone, if_true]
    exact hstore
  · simp only [hnone]
    exact hremoved _

/-- The effect of an operation, whether it succeeds or fails. -/
theorem Operation.effect (settings : StoreSettings) {operation : Operation}
    (hpossible : operation.Possible) (hindexed : store.Indexed) :
    Effect store operation (operation.after settings store) := by
  cases operation with
  | add tree bound allowUpdates =>
      rw [Operation.after, leaves, add_eq]
      apply effect_carryOut hindexed
      intro diff hplanned
      obtain ⟨collection, hbuilt, hprepared⟩ := exists_of_prepareTree hplanned
      exact admissible_of_prepare hbuilt.kept (fun _ => .of_built hbuilt) hprepared
  | merge collection allowUpdates =>
      rw [Operation.after, leaves, merge_eq]
      apply effect_carryOut hindexed
      intro diff hprepared
      exact admissible_of_prepare hpossible id hprepared
  | setHome home ids allowUpdates =>
      rw [Operation.after, leaves, setHome_eq]
      exact effect_carryOut hindexed fun _ => admissible_of_prepareHomes
  | clearHome ids => exact .forgotten ids
  | remove id direction bound => exact leaves_remove .unchanged .removed id direction bound

/-! ## What an operation keeps -/

section Effect

variable {operation : Operation} {after : MemoryStore}

theorem Effect.indexed (heffect : Effect store operation after) (hindexed : store.Indexed) :
    after.Indexed := by
  cases heffect with
  | unchanged => exact hindexed
  | written hadmissible => exact hindexed.written hadmissible.writable
  | forgotten ids => exact leaves_clearHome (fun _ => hindexed.of_eq rfl rfl) ids
  | removed doomed => exact hindexed.removeRelations doomed

/-- No dataset is related to itself. -/
def Loopless (store : MemoryStore) : Prop :=
  ∀ edge ∈ store.edges, edge.source ≠ edge.derived

theorem Effect.loopless (heffect : Effect store operation after) (hloopless : Loopless store) :
    Loopless after := by
  cases heffect with
  | unchanged => exact hloopless
  | written hadmissible =>
      rw [Loopless, MemoryStore.edges_written]
      rintro edge (hold | ⟨relation, hadded, rfl⟩)
      · exact hloopless edge hold
      · exact hadmissible.loopless relation hadded
  | forgotten ids => exact leaves_clearHome (fun _ => hloopless) ids
  | removed doomed =>
      rintro edge ⟨relation, hmem, hedge⟩
      exact hloopless edge ⟨relation, (List.mem_filter.1 hmem).1, hedge⟩

theorem Effect.sound (heffect : Effect store operation after) (hchecked : operation.FullyChecked)
    (hsound : store.Sound) : after.Sound := by
  cases heffect with
  | unchanged => exact hsound
  | written hadmissible =>
      exact hsound.written hadmissible.writable (hadmissible.acyclic hchecked hsound.acyclic)
  | forgotten ids => exact leaves_clearHome (fun _ => hsound.of_eq rfl rfl) ids
  | removed doomed => exact hsound.removeRelations doomed

theorem Operation.sound_after (settings : StoreSettings) (hchecked : operation.FullyChecked)
    (hsound : store.Sound) : MemoryStore.Sound (operation.after settings store) :=
  (Operation.effect settings hchecked.possible hsound.indexed).sound hchecked hsound

end Effect

/-! ## Histories -/

/-- The stores that operations of some kind lead to, under any settings, from a new store or
from a snapshot that was accepted. -/
inductive VisitedBy (asked : Operation → Prop) : MemoryStore → Prop
  | new : VisitedBy asked {}
  | seeded {store : MemoryStore} (snapshot : Snapshot) :
      MemoryStore.ofSnapshot snapshot = .ok store → VisitedBy asked store
  | operation {store : MemoryStore} (settings : StoreSettings) {operation : Operation} :
      asked operation → VisitedBy asked store →
        VisitedBy asked (operation.after settings store)

/-- The stores that any operations lead to. -/
abbrev Visited : MemoryStore → Prop :=
  VisitedBy Operation.Possible

theorem Visited.indexed (hvisited : Visited store) : store.Indexed := by
  induction hvisited with
  | new => exact MemoryStore.sound_empty.indexed
  | seeded snapshot hresult => exact (MemoryStore.sound_ofSnapshot hresult).indexed
  | operation settings hpossible _ ih =>
      exact (Operation.effect settings hpossible ih).indexed ih

theorem loopless_of_sound (hsound : store.Sound) : Loopless store :=
  fun _ hedge => hsound.acyclic.source_ne_derived hedge

theorem Visited.loopless (hvisited : Visited store) : Loopless store := by
  induction hvisited with
  | new => exact loopless_of_sound MemoryStore.sound_empty
  | seeded snapshot hresult => exact loopless_of_sound (MemoryStore.sound_ofSnapshot hresult)
  | operation settings hpossible hbefore ih =>
      exact (Operation.effect settings hpossible (Visited.indexed hbefore)).loopless ih

theorem VisitedBy.sound (hvisited : VisitedBy Operation.FullyChecked store) : store.Sound := by
  induction hvisited with
  | new => exact MemoryStore.sound_empty
  | seeded snapshot hresult => exact MemoryStore.sound_ofSnapshot hresult
  | operation settings hchecked _ ih => exact Operation.sound_after settings hchecked ih

/-- A snapshot is accepted exactly if its store has no cycle. -/
theorem acyclic_of_restored {restored : MemoryStore}
    (hrestored : MemoryStore.ofSnapshot store.snapshot = .ok restored) : Acyclic store.edges := by
  obtain ⟨collection, hcollection, _⟩ := bind_eq_ok.1 hrestored
  exact ((Collection.ofSnapshot_succeeds_iff store.snapshot).1
    ⟨collection, ok_of_mapError hcollection⟩).acyclic

/-- Whatever an index is asked to do, no dataset is related to itself and an edge is stored
once.  As long as no collection with a cycle of its own is merged without updates, no dataset is
derived from itself, in one step or in many.  The snapshot of the store is accepted exactly if
there is no such cycle, and then brings back its homes and its relations, in their order. -/
theorem Visited.acyclic_and_restorable (hvisited : Visited store) :
    (∀ relation ∈ store.relations, relation.source ≠ relation.derived) ∧
      (store.relations.map Relation.edge).Nodup ∧
      (VisitedBy Operation.FullyChecked store → ∀ id, ¬ Below store.edges .derived id id) ∧
      ((∀ id, ¬ Below store.edges .derived id id) ↔
        ∃ restored, MemoryStore.ofSnapshot store.snapshot = .ok restored) ∧
      ∀ restored, MemoryStore.ofSnapshot store.snapshot = .ok restored →
        restored.homes = store.homes ∧ restored.relations = store.relations := by
  have hindexed := hvisited.indexed
  refine ⟨?_, hindexed.distinct, fun hchecked => hchecked.sound.acyclic, ?_, ?_⟩
  · intro relation hmem
    exact hvisited.loopless _ (Relation.edge_mem_edgesOf hmem)
  · constructor
    · intro hacyclic
      have hsound : store.Sound := ⟨hindexed, hacyclic⟩
      exact ⟨_, hsound.ofSnapshot_snapshot⟩
    · rintro ⟨restored, hrestored⟩
      exact acyclic_of_restored hrestored
  · intro restored hrestored
    have hsound : store.Sound := ⟨hindexed, acyclic_of_restored hrestored⟩
    cases hrestored.symm.trans hsound.ofSnapshot_snapshot
    exact ⟨rfl, rfl⟩

/-- A relation merged into a new store, and a home given to one of its datasets. -/
theorem acyclic_and_restorable_of_merge :
    ∃ store, Visited store ∧ VisitedBy Operation.FullyChecked store ∧
      store.relations = [⟨"nbar", .numbered 1, .numbered 2⟩] ∧
      store.homes.entries = [(.numbered 1, "ga")] ∧
      (∀ id, ¬ Below store.edges .derived id id) ∧
      ∃ restored, MemoryStore.ofSnapshot store.snapshot = .ok restored ∧
        restored.homes = store.homes ∧ restored.relations = store.relations := by
  let collection := Collection.empty.insertRelation ⟨"nbar", .numbered 1, .numbered 2⟩
  let diff : Diff := { relationsToAdd := collection.relations }
  have hbuilt : collection.Built :=
    .change (.relation ⟨"nbar", .numbered 1, .numbered 2⟩) .empty rfl
  have hprepared : prepare {} collection false {} = .ok diff := prepare_of_nothing rfl false
  have hstored : leaves (merge {} collection false) {} = ({} : MemoryStore).written diff := by
    rw [merge, leaves_get_bind, hprepared]
    rfl
  let store := Operation.after {}
    (({} : MemoryStore).written diff) (.setHome "ga" [.numbered 1] false)
  have hvisited : ∀ asked : Operation → Prop, (∀ operation, operation.FullyChecked →
      asked operation) → VisitedBy asked store := by
    intro asked hasked
    have hmerged : VisitedBy asked (({} : MemoryStore).written diff) :=
      hstored ▸ VisitedBy.new.operation {}
        (hasked (.merge collection false) (.of_built hbuilt))
    exact hmerged.operation {} (hasked _ trivial)
  have hpossible : Visited store := hvisited _ fun _ => Operation.FullyChecked.possible
  have hchecked := hvisited Operation.FullyChecked fun _ => id
  obtain ⟨_, _, hacyclic, hrestorable, hrestored⟩ := hpossible.acyclic_and_restorable
  obtain ⟨restored, hresult⟩ := hrestorable.1 (hacyclic hchecked)
  exact ⟨store, hpossible, hchecked, rfl, rfl, hacyclic hchecked, restored, hresult,
    hrestored restored hresult⟩

/-! ## A cycle that is stored -/

/-- What is left behind of two relations that lead to and fro, of which the second one is
refused. -/
def halfDone : Collection :=
  (Collection.empty.insertRelation ⟨"nbar", .numbered 1, .numbered 2⟩).insertRelation
    ⟨"bias", .numbered 2, .numbered 1⟩

/-- A new store after the strict merge of such a collection. -/
def tangled : MemoryStore :=
  ({} : MemoryStore).written { relationsToAdd := halfDone.relations }

theorem kept_halfDone : halfDone.Kept := by
  have hfirst : Collection.Kept
      (Collection.empty.insertRelation ⟨"nbar", .numbered 1, .numbered 2⟩) :=
    .change (.relation ⟨"nbar", .numbered 1, .numbered 2⟩) .empty
  have hfresh : (Collection.empty.insertRelation
      ⟨"nbar", .numbered 1, .numbered 2⟩).classifier ⟨.numbered 2, .numbered 1⟩ = none := by
    decide
  exact hfirst.insertRelation (by decide) hfresh

theorem merge_halfDone :
    merge {} halfDone false {} = .ok { relationsToAdd := halfDone.relations } tangled := by
  have hprepared : prepare {} halfDone false {} = .ok { relationsToAdd := halfDone.relations } :=
    prepare_of_nothing rfl false
  exact (merge_eq_ok_iff MemoryStore.sound_empty.indexed kept_halfDone.lockstep).2
    ⟨hprepared, rfl⟩

theorem visited_tangled : Visited tangled := by
  have hvisited : Visited _ :=
    VisitedBy.new.operation {} (show Operation.Possible (.merge halfDone false) from kept_halfDone)
  rwa [Operation.after, leaves, merge_halfDone] at hvisited

theorem below_tangled : Below tangled.edges .derived (.numbered 1) (.numbered 1) :=
  .tail (.single ⟨_, List.mem_cons_self, rfl⟩) ⟨_, List.mem_cons_of_mem _ List.mem_cons_self, rfl⟩

theorem not_acyclic_tangled : ¬ Acyclic tangled.edges :=
  fun hacyclic => hacyclic _ below_tangled

theorem ends_of_tangled : ∀ relation ∈ tangled.relations,
    relation.source = .numbered 1 ∨ relation.derived = .numbered 1 := by
  decide

/-- A relation between datasets that the cycle has nothing to do with. -/
def apart : Collection :=
  Collection.empty.insertRelation ⟨"flat", .numbered 3, .numbered 4⟩

theorem built_apart : apart.Built :=
  .change (.relation ⟨"flat", .numbered 3, .numbered 4⟩) .empty rfl

/-- A merge of such a relation does not come across the cycle, whether it allows updates or
not. -/
theorem merge_apart (allowUpdates : Bool) :
    merge {} apart allowUpdates tangled =
      .ok { relationsToAdd := apart.relations }
        (tangled.written { relationsToAdd := apart.relations }) := by
  have hprepared : prepare {} apart allowUpdates tangled =
      .ok { relationsToAdd := apart.relations } := by
    rw [prepare_of_nothing rfl]
    cases allowUpdates <;> rfl
  exact (merge_eq_ok_iff visited_tangled.indexed built_apart.kept.lockstep).2 ⟨hprepared, rfl⟩

/-- A strict merge of a half-done collection goes through and stores its cycle, and the snapshot
of the store is refused. -/
theorem merge_stores_cycle_of_half_done :
    halfDone.Kept ∧
      merge {} halfDone false {} = .ok { relationsToAdd := halfDone.relations } tangled ∧
      Visited tangled ∧ Below tangled.edges .derived (.numbered 1) (.numbered 1) ∧
      ¬ ∃ restored, MemoryStore.ofSnapshot tangled.snapshot = .ok restored := by
  refine ⟨kept_halfDone, merge_halfDone, visited_tangled, below_tangled, ?_⟩
  rintro ⟨restored, hrestored⟩
  exact not_acyclic_tangled (acyclic_of_restored hrestored)

end Index

end DatasetLineage
