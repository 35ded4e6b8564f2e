import DatasetLineage.Proofs.Store.Accesses

/-!
# Diffs as patches

A permissive comparison sorts the records of a collection by what an existing one records of
them.  So its diff is a patch for a store of just the existing lineage.  It can be written, and
then the store records what the collection does, and otherwise what it recorded before.  After
that nothing is left to write: a comparison with what is stored now finds every record as it
is.  The patched store may have a cycle, and then there is no collection to compare with.
-/

namespace DatasetLineage

namespace MemoryStore

variable {store : MemoryStore} {collection existing : Collection} {diff : Diff}

/-- A store has all records of a collection. -/
structure Includes (store : MemoryStore) (collection : Collection) : Prop where
  relations : ∀ relation ∈ collection.relations, relation ∈ store.relations
  homes : ∀ id home, collection.home id = some home → store.homes.get? id = some home

/-- A store has the records of a collection, and no others. -/
structure SameRecords (store : MemoryStore) (existing : Collection) : Prop where
  relations : ∀ relation, relation ∈ store.relations ↔ relation ∈ existing.relations
  homes : store.homes = existing.homes

/-- Compared with a collection of what is stored, a collection is compared with the store. -/
theorem SameRecords.revises (hsame : store.SameRecords existing)
    (hexisting : Collection.Lockstep existing) (hcollection : Collection.Lockstep collection) :
    Index.Revises store collection (collection.revisions existing) := by
  apply Index.revises_of_patches (Collection.patches_revisions hcollection existing)
  · intro relation _ classifier
    rw [hexisting.classifiers, hsame.relations]
  · intro id _ _
    rw [Collection.home, hsame.homes]

section Revised

variable (hcollection : Collection.Lockstep collection)
  (hrevises : Index.Revises store collection diff)
include hcollection hrevises

/-- A revised store has the classifiers of the collection, and else those it had. -/
theorem relation_mem_written_iff (hindexed : store.Indexed) {edge : Edge} {classifier : String} :
    edge.relation classifier ∈ (store.written diff).relations ↔
      collection.classifier edge = some classifier ∨
        collection.classifier edge = none ∧ edge.relation classifier ∈ store.relations := by
  rw [relations_written_of_revises hindexed hcollection hrevises, List.mem_append, List.mem_map]
  constructor
  · rintro (⟨stored, hstored, hrelabelled⟩ | hadded)
    · have hedge : stored.edge = edge := congrArg Relation.edge hrelabelled
      cases hlabel : collection.classifier edge with
      | none =>
          rw [Collection.relabelled, hedge, hlabel] at hrelabelled
          exact .inr ⟨rfl, hrelabelled ▸ hstored⟩
      | some label =>
          rw [Collection.relabelled, hedge, hlabel] at hrelabelled
          exact .inl (congrArg (fun relation => some relation.classifier) hrelabelled)
    · exact .inl (hcollection.classifier_of_mem ((hrevises.relationsToAdd _).1 hadded).1)
  · rintro (hlabel | ⟨hnone, hstored⟩)
    · have hmem := (hcollection.classifiers edge classifier).1 hlabel
      by_cases hedge : edge ∈ store.edges
      · obtain ⟨stored, hstored, rfl⟩ := hedge
        exact .inl ⟨stored, hstored, Collection.relabelled_of_edge_eq hcollection hmem rfl⟩
      · exact .inr ((hrevises.relationsToAdd _).2 ⟨hmem, hedge⟩)
    · refine .inl ⟨_, hstored, ?_⟩
      have hedge : (edge.relation classifier).edge = edge := rfl
      rw [Collection.relabelled, hedge, hnone]
      rfl

/-- A revised store has all that it was revised with. -/
theorem includes_written (hindexed : store.Indexed) : (store.written diff).Includes collection where
  relations := by
    intro relation hmem
    exact (relation_mem_written_iff hcollection hrevises hindexed).2
      (.inl (hcollection.classifier_of_mem hmem))
  homes := by
    intro id home hhome
    have hfound : collection.homes.get? id = some home := hhome
    rw [homes_written_of_revises hrevises, OrderedMap.get?_override, hfound]
    rfl

end Revised

/-- Of records that are stored already, nothing is left to write. -/
theorem Includes.eq_empty (hincludes : store.Includes collection) (hindexed : store.Indexed)
    (hrevises : Index.Revises store collection diff) : diff = {} := by
  have hadded : diff.relationsToAdd = [] := by
    rw [List.eq_nil_iff_forall_not_mem]
    intro relation hmem
    obtain ⟨hlisted, hnew⟩ := (hrevises.relationsToAdd relation).1 hmem
    exact hnew (Relation.edge_mem_edgesOf (hincludes.relations relation hlisted))
  have hupdated : diff.relationsToUpdate = [] := by
    rw [List.eq_nil_iff_forall_not_mem]
    intro relation hmem
    obtain ⟨hlisted, stored, hstored, hedge, hdiffers⟩ :=
      (hrevises.relationsToUpdate relation).1 hmem
    have hsame := List.inj_on_of_nodup_map hindexed.distinct hstored
      (hincludes.relations relation hlisted) hedge
    exact hdiffers (congrArg Relation.classifier hsame)
  have hhomesAdded : diff.homesToAdd = OrderedMap.empty := by
    apply OrderedMap.ext_some
    intro id home
    rw [hrevises.homesToAdd, OrderedMap.get?_empty]
    refine iff_of_false ?_ (Option.some_ne_none home).symm
    rintro ⟨hhome, hnone⟩
    rw [hincludes.homes id home hhome] at hnone
    cases hnone
  have hhomesUpdated : diff.homesToUpdate = OrderedMap.empty := by
    apply OrderedMap.ext_some
    intro id home
    rw [hrevises.homesToUpdate, OrderedMap.get?_empty]
    refine iff_of_false ?_ (Option.some_ne_none home).symm
    rintro ⟨hhome, current, hcurrent, hdiffers⟩
    rw [hincludes.homes id home hhome] at hcurrent
    exact hdiffers (Option.some.inj hcurrent).symm
  obtain ⟨_, _, _, _⟩ := diff
  cases hadded
  cases hupdated
  cases hhomesAdded
  cases hhomesUpdated
  rfl

end MemoryStore

namespace Collection

open MemoryStore (Accessed SameRecords)

variable {collection existing : Collection}

/-- A permissive diff is an exact patch.  The comparison always goes through, and sorts every
record of the collection into one part of the diff or, if the existing collection has it as it
is, into none.  The diff can be written to a store of just the existing records, whatever was
done to it before, and overrides them with those of the collection.  If this leaves no cycle,
comparing the collection with what is stored then finds nothing to write. -/
theorem Built.diffAgainst_patches (hcollection : Built collection) (hexisting : Built existing) :
    ∃ diff, collection.diffAgainst (some existing) true = .ok diff ∧
      Patches collection existing diff ∧
      ∀ store, Accessed store → SameRecords store existing →
        ∃ after, MemoryStore.apply diff store = .ok () after ∧
          (∀ edge label, edge.relation label ∈ after.relations ↔
            (collection.classifier edge).or (existing.classifier edge) = some label) ∧
          (∀ id, after.homes.get? id = (collection.home id).or (existing.home id)) ∧
          (Acyclic after.edges →
            ∃ restored, Collection.ofSnapshot after.snapshot = .ok restored ∧
              collection.diffAgainst (some restored) true = .ok {}) := by
  have hlockstep := hcollection.sound.toLockstep
  have hstated := hexisting.sound.toLockstep
  refine ⟨_, compareRecords_permissive collection existing,
    patches_revisions hlockstep existing, ?_⟩
  intro store haccessed hsame
  have hindexed := haccessed.indexed
  have hrevises := hsame.revises hstated hlockstep
  have hafter : (store.written (collection.revisions existing)).Indexed :=
    hindexed.written hrevises.writable
  refine ⟨store.written (collection.revisions existing), ?_, ?_, ?_, ?_⟩
  · rw [MemoryStore.apply_eq, hindexed.obstacle?_eq_none_iff.2 hrevises.writable.toFits]
  · intro edge label
    rw [MemoryStore.relation_mem_written_iff hlockstep hrevises hindexed, Option.or_eq_some_iff,
      hstated.classifiers, hsame.relations]
  · intro id
    rw [MemoryStore.homes_written_of_revises hrevises, OrderedMap.get?_override, hsame.homes]
    rfl
  · intro hacyclic
    obtain ⟨restored, hrestored, hsound, hhomes, hrelations⟩ :=
      @ofSnapshot_succeeds (store.written (collection.revisions existing)).snapshot
        hafter.distinct hacyclic
    have hheld : SameRecords (store.written (collection.revisions existing)) restored :=
      ⟨fun relation => by rw [hrelations]; rfl, hhomes.symm⟩
    have hnothing := (MemoryStore.includes_written hlockstep hrevises hindexed).eq_empty hafter
      (hheld.revises hsound.toLockstep hlockstep)
    refine ⟨restored, hrestored, ?_⟩
    rw [← hnothing]
    exact compareRecords_permissive collection restored

/-- A relation that is added, one that is relabelled and one that is as it is, and a home that is
replaced. -/
theorem diffAgainst_patches_of_relabelling :
    ∃ collection existing diff store after restored, Built collection ∧ Built existing ∧
      collection.relations = [⟨"flat", .numbered 1, .numbered 2⟩,
        ⟨"bias", .numbered 2, .numbered 3⟩, ⟨"dark", .numbered 3, .numbered 4⟩] ∧
      existing.relations =
        [⟨"nbar", .numbered 1, .numbered 2⟩, ⟨"bias", .numbered 2, .numbered 3⟩] ∧
      collection.diffAgainst (some existing) true = .ok diff ∧
      diff.relationsToAdd = [⟨"dark", .numbered 3, .numbered 4⟩] ∧
      diff.relationsToUpdate = [⟨"flat", .numbered 1, .numbered 2⟩] ∧
      diff.homesToUpdate.entries = [(.numbered 1, "de")] ∧
      MemoryStore.ofSnapshot existing.toSnapshot = .ok store ∧
      MemoryStore.apply diff store = .ok () after ∧
      after.relations = [⟨"flat", .numbered 1, .numbered 2⟩,
        ⟨"bias", .numbered 2, .numbered 3⟩, ⟨"dark", .numbered 3, .numbered 4⟩] ∧
      ofSnapshot after.snapshot = .ok restored ∧
      collection.diffAgainst (some restored) true = .ok {} := by
  have hnbar : Built (Collection.empty.insertRelation ⟨"nbar", .numbered 1, .numbered 2⟩) :=
    .change (.relation ⟨"nbar", .numbered 1, .numbered 2⟩) .empty rfl
  have hbias := Built.change (.relation ⟨"bias", .numbered 2, .numbered 3⟩) hnbar rfl
  have hexisting := Built.change (.home (.numbered 1) (some "ga")) hbias rfl
  have hflat : Built (Collection.empty.insertRelation ⟨"flat", .numbered 1, .numbered 2⟩) :=
    .change (.relation ⟨"flat", .numbered 1, .numbered 2⟩) .empty rfl
  have hmore := Built.change (.relation ⟨"bias", .numbered 2, .numbered 3⟩) hflat rfl
  have hdark := Built.change (.relation ⟨"dark", .numbered 3, .numbered 4⟩) hmore rfl
  have hcollection := Built.change (.home (.numbered 1) (some "de")) hdark rfl
  have haccessed : Accessed _ := .seeded ⟨.ofList [(.numbered 1, "ga")],
    [⟨"nbar", .numbered 1, .numbered 2⟩, ⟨"bias", .numbered 2, .numbered 3⟩]⟩ rfl
  obtain ⟨diff, hdiff, _, hpatched⟩ := hcollection.diffAgainst_patches hexisting
  cases hdiff.symm.trans (compareRecords_permissive _ _)
  obtain ⟨after, hafter, _, _, hnothing⟩ := hpatched _ haccessed ⟨fun _ => Iff.rfl, rfl⟩
  cases hafter
  obtain ⟨restored, hrestored, hempty⟩ := hnothing (acyclic_of_ascending (by decide))
  exact ⟨_, _, _, _, _, restored, hcollection, hexisting, rfl, rfl, hdiff, rfl, rfl, rfl, rfl,
    rfl, rfl, hrestored, hempty⟩

end Collection

end DatasetLineage
