import DatasetLineage.Proofs.Store.Override
import DatasetLineage.Proofs.Store.Removal

/-!
# Direct accesses to a store

A store can be written to without an index: with diffs that were computed against an older
state, with removals, with homes to forget and with datasets to note, in any order.  Nothing
checks such diffs for cycles.  The positions stay in step all the same, since a diff is looked
at as a whole before it is written, and a removal counts the positions anew.  So a diff is
written exactly if it fits, and an update changes the relation it means and no other.
-/

namespace DatasetLineage

namespace MemoryStore

variable {store : MemoryStore}

/-- What a client can ask of a store.  A diff adds no edge twice. -/
inductive Access where
  | apply (diff : Diff) (distinct : (diff.relationsToAdd.map Relation.edge).Nodup)
  | removeRelations (doomed : List Relation)
  | clearHomes (ids : List DatasetId)
  | register (ids : List DatasetId)

def Access.after (store : MemoryStore) : Access → MemoryStore
  | .apply diff _ => leaves (MemoryStore.apply diff) store
  | .removeRelations doomed =>
      leaves (MemoryStore.removeRelations (doomed.map Relation.edge)) store
  | .clearHomes ids => leaves (MemoryStore.clearHomes ids) store
  | .register ids => leaves (MemoryStore.register ids) store

/-- The stores that any accesses lead to, from a new store or from a snapshot that was
accepted. -/
inductive Accessed : MemoryStore → Prop
  | new : Accessed {}
  | seeded {store : MemoryStore} (snapshot : Snapshot) :
      ofSnapshot snapshot = .ok store → Accessed store
  | access {store : MemoryStore} (access : Access) :
      Accessed store → Accessed (access.after store)

/-- A diff is written exactly if it fits the store, and else it leaves the store alone. -/
theorem Indexed.apply_cases (hindexed : store.Indexed) (diff : Diff) :
    store.Fits diff ∧ MemoryStore.apply diff store = .ok () (store.written diff) ∨
      ¬ store.Fits diff ∧
        ∃ refusal, MemoryStore.apply diff store = .error (.refused refusal) store := by
  rw [apply_eq, ← hindexed.obstacle?_eq_none_iff]
  cases store.obstacle? diff with
  | none => exact .inl ⟨rfl, rfl⟩
  | some refusal => exact .inr ⟨Option.some_ne_none refusal, refusal, rfl⟩

theorem Access.indexed_after (access : Access) (hindexed : store.Indexed) :
    (access.after store).Indexed := by
  cases access with
  | apply diff hdistinct =>
      rw [Access.after, leaves]
      rcases hindexed.apply_cases diff with ⟨hfits, hresult⟩ | ⟨_, refusal, hresult⟩
      · rw [hresult]
        exact hindexed.written ⟨hfits, hdistinct⟩
      · rw [hresult]
        exact hindexed
  | removeRelations doomed => exact hindexed.removeRelations _
  | clearHomes ids =>
      rw [Access.after, ← Index.clearHome]
      exact Index.leaves_clearHome (fun _ => hindexed.of_eq rfl rfl) ids
  | register ids => exact hindexed.of_eq rfl rfl

/-- Whatever is done to a store, its positions stay in step. -/
theorem Accessed.indexed (haccessed : Accessed store) : store.Indexed := by
  induction haccessed with
  | new => exact sound_empty.indexed
  | seeded snapshot hresult => exact (sound_ofSnapshot hresult).indexed
  | access access _ ih => exact access.indexed_after ih

/-- A diff that can be written is written by one access. -/
theorem Accessed.written (haccessed : Accessed store) {diff : Diff}
    (hwritable : store.Writable diff) : Accessed (store.written diff) := by
  have hafter := haccessed.access (.apply diff hwritable.distinct)
  rcases haccessed.indexed.apply_cases diff with ⟨_, hresult⟩ | ⟨hmisfit, _⟩
  · rwa [Access.after, leaves, hresult] at hafter
  · exact absurd hwritable.toFits hmisfit

/-- An index does whatever it does to its store by such accesses. -/
theorem Accessed.effect {operation : Index.Operation} {after : MemoryStore}
    (haccessed : Accessed store) (heffect : Index.Effect store operation after) :
    Accessed after := by
  cases heffect with
  | unchanged => exact haccessed
  | written hadmissible => exact haccessed.written hadmissible.writable
  | forgotten ids => exact haccessed.access (.clearHomes ids)
  | removed doomed =>
      have hafter :=
        haccessed.access (.removeRelations (doomed.map fun edge => edge.relation ""))
      rwa [Access.after, List.map_map, List.map_id''] at hafter
      exact fun _ => rfl

theorem accessed_of_visited (hvisited : Index.Visited store) : Accessed store := by
  induction hvisited with
  | new => exact .new
  | seeded snapshot hresult => exact .seeded snapshot hresult
  | operation settings hpossible hbefore ih =>
      exact ih.effect
        (Index.Operation.effect settings hpossible (Index.Visited.indexed hbefore))

/-- What writing a diff comes to: all of it or nothing. -/
structure AppliesExactly (store : MemoryStore) (diff : Diff) : Prop where
  succeeds_iff :
    (∃ after, MemoryStore.apply diff store = .ok () after) ↔ store.Fits diff
  failed : ∀ failure after, MemoryStore.apply diff store = .error failure after → after = store
  relations : ∀ after, MemoryStore.apply diff store = .ok () after →
    after.relations =
      store.relations.map (Relation.updatedBy diff.relationsToUpdate) ++ diff.relationsToAdd
  homes : ∀ after, MemoryStore.apply diff store = .ok () after →
    after.homes = (store.homes.override diff.homesToAdd).override diff.homesToUpdate

theorem Indexed.appliesExactly (hindexed : store.Indexed) {diff : Diff}
    (hdistinct : (diff.relationsToAdd.map Relation.edge).Nodup) :
    store.AppliesExactly diff := by
  rcases hindexed.apply_cases diff with ⟨hfits, hresult⟩ | ⟨hmisfit, refusal, hresult⟩
  · constructor
    · exact iff_of_true ⟨_, hresult⟩ hfits
    · intro failure after hfailed
      rw [hresult] at hfailed
      cases hfailed
    · intro after hsucceeded
      rw [hresult] at hsucceeded
      cases hsucceeded
      exact hindexed.relations_written ⟨hfits, hdistinct⟩
    · intro after hsucceeded
      rw [hresult] at hsucceeded
      cases hsucceeded
      exact homes_written store diff
  · have hfailure : ∀ after, MemoryStore.apply diff store ≠ .ok () after := by
      intro after hsucceeded
      rw [hresult] at hsucceeded
      cases hsucceeded
    constructor
    · exact iff_of_false (fun ⟨after, hsucceeded⟩ => hfailure after hsucceeded) hmisfit
    · intro failure after hfailed
      rw [hresult] at hfailed
      cases hfailed
      rfl
    · exact fun after hsucceeded => absurd hsucceeded (hfailure after)
    · exact fun after hsucceeded => absurd hsucceeded (hfailure after)

/-- Whatever was done to a store, every stored edge has its position and no edge is stored
twice.  A diff goes through exactly if what it adds is absent and what it updates is present.
Then the relations are the old ones in their places, updated, followed by the new ones in
their order, and the homes are overridden; else nothing is changed.  A removal takes away the
relations between the listed pairs, whatever their classifiers, and returns their number. -/
theorem Accessed.applies_and_removes_exactly (haccessed : Accessed store) :
    (∀ edge position, store.positions.get? edge = some position ↔
        (store.relations.map Relation.edge)[position]? = some edge) ∧
      (store.relations.map Relation.edge).Nodup ∧
      (∀ diff, (diff.relationsToAdd.map Relation.edge).Nodup → store.AppliesExactly diff) ∧
      ∀ doomed : List Relation, ∃ after,
        MemoryStore.removeRelations (doomed.map Relation.edge) store =
          .ok (store.relations.countP fun relation =>
            relation.edge ∈ doomed.map Relation.edge) after ∧
        Index.Removed store (doomed.map Relation.edge) after := by
  have hindexed := haccessed.indexed
  refine ⟨hindexed, hindexed.distinct, fun _ => hindexed.appliesExactly, ?_⟩
  intro doomed
  exact Index.removeRelations_eq_ok store _

/-- The first of two relations is removed, by another classifier, so that the second one moves
to its place.  A diff that updates the second one twice, and one that adds it again. -/
theorem applies_and_removes_exactly_of_moved :
    ∃ store after failed, Accessed store ∧
      store.relations = [⟨"bias", .numbered 2, .numbered 3⟩] ∧
      store.positions.entries = [(⟨.numbered 2, .numbered 3⟩, 0)] ∧
      MemoryStore.apply
        { relationsToAdd := [⟨"dark", .numbered 3, .numbered 4⟩]
          relationsToUpdate := [⟨"flat", .numbered 2, .numbered 3⟩,
            ⟨"nbar", .numbered 2, .numbered 3⟩] } store = .ok () after ∧
      after.relations =
        [⟨"nbar", .numbered 2, .numbered 3⟩, ⟨"dark", .numbered 3, .numbered 4⟩] ∧
      (MemoryStore.apply { relationsToAdd := [⟨"nbar", .numbered 2, .numbered 3⟩] } store =
        .error (.refused (.relationPresent ⟨.numbered 2, .numbered 3⟩)) failed) ∧
      failed = store := by
  let seed : Snapshot := ⟨OrderedMap.empty,
    [⟨"nbar", .numbered 1, .numbered 2⟩, ⟨"bias", .numbered 2, .numbered 3⟩]⟩
  have hseeded : Accessed _ := .seeded seed rfl
  have haccessed := hseeded.access (.removeRelations [⟨"dark", .numbered 1, .numbered 2⟩])
  obtain ⟨_, _, happlies, _⟩ := haccessed.applies_and_removes_exactly
  have hwritten := happlies
    { relationsToAdd := [⟨"dark", .numbered 3, .numbered 4⟩]
      relationsToUpdate := [⟨"flat", .numbered 2, .numbered 3⟩,
        ⟨"nbar", .numbered 2, .numbered 3⟩] } (by decide)
  have hrefused := happlies { relationsToAdd := [⟨"nbar", .numbered 2, .numbered 3⟩] } (by decide)
  refine ⟨_, _, _, haccessed, rfl, rfl, rfl, ?_, rfl, ?_⟩
  · exact (hwritten.relations _ rfl).trans rfl
  · exact hrefused.failed _ _ rfl

end MemoryStore

end DatasetLineage
