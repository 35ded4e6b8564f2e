import DatasetLineage.Proofs.Store.History

/-!
# Permissive merges

A merge that allows updates overrides what a store records.  All that is checked are cycles,
and of the merged lineage only the relations that are new to the closure are put in for it.
No cycle is missed that uses a new edge: a relation with another classifier lies over an edge
that is stored, and a cycle over stored and new edges that uses a new one stays inside the
closure.  A cycle that is stored already is missed if it lies outside.
-/

namespace DatasetLineage

/-- A stored relation with the classifier that a collection has for its edge, if it has one. -/
def Collection.relabelled (collection : Collection) (stored : Relation) : Relation :=
  { stored with classifier := (collection.classifier stored.edge).getD stored.classifier }

/-- A stored relation after updates.  The last update over its edge takes its place. -/
def Relation.updatedBy (updates : List Relation) (stored : Relation) : Relation :=
  (updates.reverse.find? fun update => update.edge = stored.edge).getD stored

namespace Relation

variable {updates : List Relation} {stored : Relation}

/-- Updates are made one after the other. -/
theorem updatedBy_cons (update : Relation) (rest : List Relation) (stored : Relation) :
    stored.updatedBy (update :: rest) =
      (if stored.edge = update.edge then update else stored).updatedBy rest := by
  rw [updatedBy, updatedBy, List.reverse_cons, List.find?_append]
  by_cases hedge : stored.edge = update.edge
  · rw [if_pos hedge, hedge]
    cases rest.reverse.find? fun later => later.edge = update.edge <;> simp
  · rw [if_neg hedge, List.find?_singleton]
    simp [Ne.symm hedge]

theorem updatedBy_of_absent (habsent : ∀ update ∈ updates, update.edge ≠ stored.edge) :
    stored.updatedBy updates = stored := by
  have hnone : updates.reverse.find? (fun update => update.edge = stored.edge) = none := by
    simpa using habsent
  rw [updatedBy, hnone]
  rfl

theorem updatedBy_of_present (hpresent : ∃ update ∈ updates, update.edge = stored.edge) :
    ∃ update ∈ updates, update.edge = stored.edge ∧ stored.updatedBy updates = update := by
  cases hfound : updates.reverse.find? fun update => update.edge = stored.edge with
  | none =>
      obtain ⟨update, hupdate, hedge⟩ := hpresent
      have hother := List.find?_eq_none.1 hfound update (List.mem_reverse.2 hupdate)
      exact absurd hedge (by simpa using hother)
  | some update =>
      have hedge := List.find?_some hfound
      refine ⟨update, List.mem_reverse.1 (List.mem_of_find?_eq_some hfound),
        of_decide_eq_true hedge, ?_⟩
      rw [updatedBy, hfound]
      rfl

end Relation

namespace Collection

variable {collection existing : Collection}

/-- A relation of a collection replaces every stored relation over its edge. -/
theorem relabelled_of_edge_eq (hcollection : Lockstep collection) {relation stored : Relation}
    (hmem : relation ∈ collection.relations) (hedge : stored.edge = relation.edge) :
    collection.relabelled stored = relation := by
  have hplace : (collection.relabelled stored).edge = relation.edge := hedge
  apply Relation.ext_edge hplace
  rw [relabelled, hedge, hcollection.classifier_of_mem hmem]
  rfl

/-- A stored relation is replaced only by one with another classifier. -/
theorem exists_of_relabelled_ne (hcollection : Lockstep collection) {stored : Relation}
    (hdiffers : collection.relabelled stored ≠ stored) :
    ∃ relation ∈ collection.relations, stored.edge = relation.edge ∧
      stored.classifier ≠ relation.classifier := by
  cases hlabel : collection.classifier stored.edge with
  | none =>
      rw [relabelled, hlabel] at hdiffers
      exact absurd rfl hdiffers
  | some label =>
      refine ⟨_, (hcollection.classifiers _ _).1 hlabel, rfl, ?_⟩
      rintro rfl
      rw [relabelled, hlabel] at hdiffers
      exact hdiffers rfl

/-- Of the relations of a collection, the new ones have all edges that are new. -/
theorem edges_union_lacking (hexisting : Lockstep existing) :
    existing.edges ∪ edgesOf (collection.relations.filter existing.lacks) =
      existing.edges ∪ collection.edges := by
  ext edge
  constructor
  · rintro (hold | ⟨relation, hmem, hedge⟩)
    · exact .inl hold
    · exact .inr ⟨relation, (List.mem_filter.1 hmem).1, hedge⟩
  · rintro (hold | ⟨relation, hmem, rfl⟩)
    · exact .inl hold
    · by_cases hlacks : existing.lacks relation = true
      · exact .inr ⟨relation, List.mem_filter.2 ⟨hmem, hlacks⟩, rfl⟩
      · rw [hexisting.lacks_iff, not_not] at hlacks
        exact .inl hlacks

end Collection

namespace MemoryStore

variable {store : MemoryStore} {collection : Collection}

/-! ## Relabelling -/

/-- The relation over an edge is replaced, and no other. -/
theorem Indexed.relations_relabel (hindexed : store.Indexed) (relation : Relation) :
    (store.relabel relation).relations = store.relations.map fun stored =>
      if stored.edge = relation.edge then relation else stored := by
  have hplace : ∀ position stored, store.relations[position]? = some stored →
      (store.positions.get? relation.edge = some position ↔ stored.edge = relation.edge) := by
    intro position stored hstored
    rw [hindexed, List.getElem?_map, hstored]
    simp
  apply List.ext_getElem?
  intro other
  rw [List.getElem?_map, relabel]
  cases hstored : store.relations[other]? with
  | none => cases store.positions.get? relation.edge <;> simpa using hstored
  | some stored =>
      have hother := hplace other stored hstored
      cases hposition : store.positions.get? relation.edge with
      | none =>
          rw [hposition] at hother
          simp [hstored, ← hother]
      | some position =>
          rw [hposition, Option.some.injEq] at hother
          by_cases hedge : stored.edge = relation.edge
          · have hreplaced : { stored with classifier := relation.classifier } = relation :=
              Relation.ext_edge hedge rfl
            simp [List.getElem?_modify, hstored, hother, hedge, hreplaced]
          · simp [hstored, hother, hedge]

/-- Relations that are updated one after the other take the place of those over their edges. -/
theorem Indexed.relations_foldl_relabel (hindexed : store.Indexed) (updates : List Relation) :
    (updates.foldl MemoryStore.relabel store).relations =
      store.relations.map (Relation.updatedBy updates) := by
  induction updates generalizing store with
  | nil => exact (List.map_id' store.relations).symm
  | cons update rest ih =>
      have hafter : (store.relabel update).Indexed :=
        hindexed.of_eq (positions_relabel store update) (map_edge_relabel store update)
      rw [List.foldl_cons, ih hafter, hindexed.relations_relabel, List.map_map]
      apply List.map_congr_left
      intro stored _
      exact (Relation.updatedBy_cons update rest stored).symm

/-- The relations after a diff is written: the old ones in their places, updated, and then the
new ones. -/
theorem Indexed.relations_written (hindexed : store.Indexed) {diff : Diff}
    (hwritable : store.Writable diff) :
    (store.written diff).relations =
      store.relations.map (Relation.updatedBy diff.relationsToUpdate) ++ diff.relationsToAdd := by
  have hextended := hindexed.foldl_appendRelation hwritable.distinct hwritable.relationsToAdd
  have hnew : ∀ relation ∈ diff.relationsToAdd,
      relation.updatedBy diff.relationsToUpdate = relation := by
    intro relation hadded
    apply Relation.updatedBy_of_absent
    intro update hupdate hedge
    exact hwritable.relationsToAdd relation hadded
      (hedge ▸ hwritable.relationsToUpdate update hupdate)
  calc (store.written diff).relations
    _ = (diff.relationsToAdd.foldl MemoryStore.appendRelation store).relations.map
          (Relation.updatedBy diff.relationsToUpdate) :=
        hextended.relations_foldl_relabel diff.relationsToUpdate
    _ = store.relations.map (Relation.updatedBy diff.relationsToUpdate) ++
          diff.relationsToAdd := by
        rw [relations_foldl_appendRelation, List.map_append, List.map_congr_left hnew,
          List.map_id']

/-! ## What a revision writes -/

section Written

variable {diff : Diff}

/-- What a revision updates are the relations that the collection replaces. -/
theorem updatedBy_of_revises (hcollection : Collection.Lockstep collection)
    (hrevises : Index.Revises store collection diff) {stored : Relation}
    (hstored : stored ∈ store.relations) :
    stored.updatedBy diff.relationsToUpdate = collection.relabelled stored := by
  by_cases hupdated : ∃ update ∈ diff.relationsToUpdate, update.edge = stored.edge
  · obtain ⟨update, hupdate, hedge, heq⟩ := Relation.updatedBy_of_present hupdated
    have hmem := ((hrevises.relationsToUpdate update).1 hupdate).1
    rw [heq, Collection.relabelled_of_edge_eq hcollection hmem hedge.symm]
  · have hsame : collection.relabelled stored = stored := by
      by_contra hdiffers
      obtain ⟨relation, hmem, hedge, hchanged⟩ :=
        Collection.exists_of_relabelled_ne hcollection hdiffers
      have hupdate := (hrevises.relationsToUpdate relation).2
        ⟨hmem, stored, hstored, hedge, hchanged⟩
      exact hupdated ⟨relation, hupdate, hedge.symm⟩
    rw [hsame]
    apply Relation.updatedBy_of_absent
    intro update hupdate hedge
    exact hupdated ⟨update, hupdate, hedge⟩

/-- The relations of a revised store: the old ones, in their places and relabelled, and then
the new ones. -/
theorem relations_written_of_revises (hindexed : store.Indexed)
    (hcollection : Collection.Lockstep collection)
    (hrevises : Index.Revises store collection diff) :
    (store.written diff).relations =
      store.relations.map collection.relabelled ++ diff.relationsToAdd := by
  rw [hindexed.relations_written hrevises.writable, List.append_left_inj]
  apply List.map_congr_left
  intro stored
  exact updatedBy_of_revises hcollection hrevises

/-- The homes of a revised store: those of the collection, and else the old ones. -/
theorem homes_written_of_revises (hrevises : Index.Revises store collection diff) :
    (store.written diff).homes = store.homes.override collection.homes := by
  apply OrderedMap.ext
  intro id
  have hadded : diff.homesToAdd.get? id =
      (collection.home id).filter fun _ => (store.homes.get? id).isNone := by
    apply Option.ext
    intro home
    rw [hrevises.homesToAdd id home, Option.filter_eq_some_iff, Option.isNone_iff_eq_none]
  have hupdated : diff.homesToUpdate.get? id =
      (collection.home id).filter fun home => (store.homes.get? id).any (· ≠ home) := by
    apply Option.ext
    intro home
    rw [hrevises.homesToUpdate id home, Option.filter_eq_some_iff, Option.any_eq_true]
    simp
  rw [homes_written, OrderedMap.get?_override, OrderedMap.get?_override,
    OrderedMap.get?_override, hadded, hupdated, Collection.home]
  cases collection.homes.get? id with
  | none => rfl
  | some home =>
      cases store.homes.get? id with
      | none => rfl
      | some current => by_cases hsame : current = home <;> simp [Option.filter, hsame]

end Written

end MemoryStore

namespace Index

variable {store : MemoryStore} {collection existing : Collection}

/-- A plan with updates is made, unless the stored and the merged lineage have a cycle
together. -/
theorem plan_permissive_cases {ids : List DatasetId} {inside : Set DatasetId}
    (hclosure : MemoryStore.Closure store ids existing inside) (hsound : store.Sound)
    (hcollection : Collection.Lockstep collection)
    (habout : ∀ said ∈ collection.facts, said.About inside) :
    Acyclic (store.edges ∪ collection.edges) ∧
        plan collection existing true = .ok (collection.revisions existing) ∨
      ¬ Acyclic (store.edges ∪ collection.edges) ∧
        ∃ id, plan collection existing true =
          .error (Failure.contradiction .extendingStored (.cyclicGraph id)) := by
  have hexisting := hclosure.built.sound
  have hdistinct : ((collection.relations.filter existing.lacks).map Relation.edge).Nodup :=
    hcollection.distinct.sublist (List.filter_sublist.map _)
  have hfresh : ∀ relation ∈ collection.relations.filter existing.lacks,
      relation.edge ∉ existing.edges := by
    intro relation hmem
    exact hexisting.lacks_iff.1 (List.mem_filter.1 hmem).2
  rw [plan_permissive, ← hclosure.acyclic_iff hsound hcollection habout,
    ← Collection.edges_union_lacking hexisting.toLockstep]
  rcases hexisting.forM_mergeRelation_cases hdistinct hfresh with
    ⟨hacyclic, extended, hmerged⟩ | ⟨hcyclic, id, hmerged⟩
  · rw [hmerged]
    exact .inl ⟨hacyclic, rfl⟩
  · rw [hmerged]
    exact .inr ⟨hcyclic, id, rfl⟩

/-- A merge that allows updates overrides a store without a cycle, and is checked for cycles
only.  It goes through exactly if the stored and the merged relations have no cycle together, and
fails with a cycle otherwise.  Then the stored relations are relabelled in their places, followed
by the new ones in their order, the merged homes override the stored ones, and the diff that is
returned lists what is changed. -/
theorem Visited.merge_overrides (hvisited : Visited store) (hacyclic : Acyclic store.edges)
    (hcollection : collection.Built) {settings : StoreSettings}
    (hrequire : settings.requireKnownDatasets = false) (hlimit : settings.maxFetchRounds = 0) :
    ((∃ diff after, merge settings collection true store = .ok diff after) ↔
        Acyclic (store.edges ∪ collection.edges)) ∧
      (∀ failure after, merge settings collection true store = .error failure after →
        ∃ id, failure.lineageError? = some (.cyclicGraph id)) ∧
      ∀ diff after, merge settings collection true store = .ok diff after →
        after.relations = store.relations.map collection.relabelled ++
            collection.relations.filter
              (fun relation => relation.edge ∉ store.relations.map Relation.edge) ∧
          after.homes = store.homes.override collection.homes ∧
          Revises store collection diff := by
  have hsound : store.Sound := ⟨hvisited.indexed, hacyclic⟩
  have hlockstep := hcollection.sound.toLockstep
  obtain ⟨existing, inside, hclosure, hprepare⟩ :=
    exists_closure_of_sound hsound hrequire hlimit collection
  have habout := about_of_covers hlockstep hclosure.covers
  have hrevises := revises_of_closure hclosure hlockstep habout
  have hadded : (collection.revisions existing).relationsToAdd = collection.relations.filter
      (fun relation => relation.edge ∉ store.relations.map Relation.edge) := by
    apply List.filter_congr
    intro relation hmem
    rw [Bool.eq_iff_iff, hclosure.lacks_iff (habout (.relation relation) hmem), decide_eq_true_iff,
      mem_edgesOf, List.mem_map]
  simp only [merge_eq_ok_iff hsound.indexed hlockstep, merge_eq_error_iff hsound.indexed hlockstep,
    hprepare]
  rcases plan_permissive_cases hclosure hsound hlockstep habout with
    ⟨hunion, hplanned⟩ | ⟨hcyclic, id, hplanned⟩
  · rw [hplanned]
    refine ⟨?_, ?_, ?_⟩
    · simp [hunion]
    · rintro failure after ⟨hfailed, _⟩
      cases hfailed
    · rintro diff after ⟨hdiff, rfl⟩
      cases hdiff
      refine ⟨?_, MemoryStore.homes_written_of_revises hrevises, hrevises⟩
      rw [MemoryStore.relations_written_of_revises hsound.indexed hlockstep hrevises, hadded]
  · rw [hplanned]
    refine ⟨?_, ?_, ?_⟩
    · simp [hcyclic]
    · rintro failure after ⟨hfailed, _⟩
      cases hfailed
      exact ⟨id, rfl⟩
    · rintro diff after ⟨hdiff, _⟩
      cases hdiff

/-- A stored relation that is relabelled, a relation that goes on from it, and a home that is
replaced. -/
theorem merge_overrides_of_relabelling :
    ∃ store collection diff after, Visited store ∧ Acyclic store.edges ∧ collection.Built ∧
      store.relations = [⟨"nbar", .numbered 1, .numbered 2⟩] ∧
      store.homes.entries = [(.numbered 1, "ga")] ∧
      collection.relations =
        [⟨"bias", .numbered 1, .numbered 2⟩, ⟨"flat", .numbered 2, .numbered 3⟩] ∧
      collection.homes.entries = [(.numbered 1, "de")] ∧
      merge {} collection true store = .ok diff after ∧
      after.relations =
        [⟨"bias", .numbered 1, .numbered 2⟩, ⟨"flat", .numbered 2, .numbered 3⟩] ∧
      after.homes.entries = [(.numbered 1, "de")] ∧
      diff.homesToUpdate.get? (.numbered 1) = some "de" := by
  let seed : Snapshot :=
    { homes := .ofList [(.numbered 1, "ga")]
      relations := [⟨"nbar", .numbered 1, .numbered 2⟩] }
  have hvisited : Visited _ := .seeded seed rfl
  have hacyclic : Acyclic (edgesOf seed.relations) := acyclic_of_ascending (by decide)
  have hfirst : Collection.Built
      (Collection.empty.insertRelation ⟨"bias", .numbered 1, .numbered 2⟩) :=
    .change (.relation ⟨"bias", .numbered 1, .numbered 2⟩) .empty rfl
  have hmore := Collection.Built.change
    (.relation ⟨"flat", .numbered 2, .numbered 3⟩) hfirst rfl
  have hcollection := Collection.Built.change (.home (.numbered 1) (some "de")) hmore rfl
  obtain ⟨hsucceeds, _, hwritten⟩ :=
    @Visited.merge_overrides _ _ hvisited hacyclic hcollection {} rfl rfl
  have hsubset : edgesOf [⟨"nbar", .numbered 1, .numbered 2⟩] ⊆
      edgesOf [⟨"bias", .numbered 1, .numbered 2⟩, ⟨"flat", .numbered 2, .numbered 3⟩] := by
    intro edge ⟨stored, hstored, hedge⟩
    cases List.mem_singleton.1 hstored
    exact ⟨_, List.mem_cons_self, hedge⟩
  obtain ⟨diff, after, hmerged⟩ :=
    hsucceeds.2 (hcollection.sound.acyclic.mono (Set.union_subset hsubset subset_rfl))
  obtain ⟨hrelations, hhomes, hrevises⟩ := hwritten diff after hmerged
  refine ⟨_, _, diff, after, hvisited, hacyclic, hcollection, rfl, rfl, rfl, rfl, hmerged,
    hrelations, ?_, ?_⟩
  · rw [hhomes]
    rfl
  · rw [hrevises.homesToUpdate]
    exact ⟨rfl, "ga", rfl, by decide⟩

/-- Next to a stored cycle a merge with updates goes through, although the stored and the merged
relations have a cycle. -/
theorem merge_overrides_fails_beside_cycle :
    Visited tangled ∧ apart.Built ∧
      (∃ diff after, merge {} apart true tangled = .ok diff after) ∧
      ¬ Acyclic (tangled.edges ∪ apart.edges) := by
  refine ⟨visited_tangled, built_apart, ⟨_, _, merge_apart true⟩, ?_⟩
  intro hacyclic
  exact not_acyclic_tangled (hacyclic.mono Set.subset_union_left)

end Index

end DatasetLineage
