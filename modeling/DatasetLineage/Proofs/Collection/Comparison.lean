import DatasetLineage.Proofs.Collection.Acceptance
import DatasetLineage.Proofs.Collection.Revisions
import DatasetLineage.Proofs.Collection.Snapshot

/-!
# Comparing collections

A strict comparison merges the existing collection into a copy of the new one, and its
result serves a merge the other way round.  Both merges go through exactly if the facts of
the two collections are consistent together, so the scratch copy tells for either of them,
and no record contradicts another after it.  The diff is then what the existing collection
lacks, and merging that much leads to the homes and the relations that merging the whole
collection leads to, in their order.
-/

namespace DatasetLineage

/-- Merge the records that a diff adds: its homes, then its relations. -/
def Diff.replay (diff : Diff) : Merging Unit := do
  diff.homesToAdd.entries.forM fun (id, home) => Collection.mergeHome id home
  diff.relationsToAdd.forM Collection.mergeRelation

def Diff.newRecords (diff : Diff) : Snapshot :=
  ⟨diff.homesToAdd, diff.relationsToAdd⟩

theorem Diff.replay_eq (diff : Diff) :
    diff.replay = Collection.enterAll diff.newRecords.listing := by
  rw [Snapshot.listing, Collection.enterAll_append, Collection.enterAll_map,
    Collection.enterAll_map]
  rfl

namespace Collection

variable {collection existing merged : Collection} {allowUpdates : Bool}

/-! ## What a collection lists -/

theorem known_mem_listing {id : DatasetId} (hlockstep : Lockstep collection) :
    .known id ∈ Fact.contents collection.listing ↔ collection.contains id = true := by
  have hend : ∀ relation ∈ collection.relations,
      id = relation.source ∨ id = relation.derived → collection.contains id = true := by
    rintro relation hmem (rfl | rfl)
    · exact (hlockstep.known relation hmem).1
    · exact (hlockstep.known relation hmem).2
  have hlisted : id ∈ collection.datasetIds ↔ collection.contains id = true :=
    OrderedMap.contains_iff_mem_keys.symm
  simp only [listing, Fact.contents_append, Set.mem_union, Fact.mem_contents_map, Fact.content,
    Set.mem_singleton_iff, Set.mem_insert_iff, reduceCtorEq, and_false, exists_false, false_or,
    Fact.known.injEq, exists_eq_right', hlisted]
  constructor
  · rintro (⟨relation, hmem, hid⟩ | hknown)
    · exact hend relation hmem hid
    · exact hknown
  · exact .inr

theorem detail_mem_listing {edge : Edge} {tree : Tree} :
    .detail edge tree ∈ Fact.contents collection.listing ↔
      collection.details.get? edge = some tree ∧ tree.children.hasDetail = true := by
  rw [OrderedMap.get?_eq_some_iff]
  simp [listing, Fact.contents_append, Fact.mem_contents_map, Fact.content]

def Detailed (facts : Set Fact) : Prop :=
  ∀ edge tree, .detail edge tree ∈ facts → tree.children.hasDetail = true

/-- No merge registers a subtree without detail. -/
theorem Change.detailed_listing {change : Change} (hfaultless : change.Faultless) :
    Detailed (Fact.contents change.listing) := by
  intro edge tree hmem
  cases change with
  | home id home => simp [Change.listing, Fact.mem_contents_map, Fact.content] at hmem
  | relation relation => simp [Change.listing, Fact.contents, Fact.content] at hmem
  | tree supplied bound =>
      have hdirection : supplied.OneDirection bound :=
        Tree.oneDirection_iff_entries.2 hfaultless.2
      rw [Change.listing, Tree.contents_entries hdirection] at hmem
      cases hmem with
      | detail _ _ _ hdetail => exact hdetail
  | collection other => exact (detail_mem_listing.1 hmem).2

theorem Built.detailed (hbuilt : Built collection) : Detailed collection.facts := by
  have hboth : Sound collection ∧ Detailed collection.facts := by
    apply hbuilt.induction
    · rw [facts_empty]
      exact ⟨sound_empty, fun edge tree hmem => hmem.elim⟩
    · intro change before after ⟨hsound, hdetailed⟩ hresult
      obtain ⟨hfaultless, hentered⟩ := hsound.perform_eq_ok_iff.1 hresult
      have hafter := hsound.enteredAll hentered
      refine ⟨hafter.sound, fun edge tree hmem => ?_⟩
      rw [hafter.facts_eq] at hmem
      cases hmem with
      | inl hold => exact hdetailed edge tree hold
      | inr hnew => exact Change.detailed_listing hfaultless edge tree hnew
  exact hboth.2

/-- A collection that merges have built lists everything it holds. -/
theorem Built.contents_listing (hbuilt : Built collection) :
    Fact.contents collection.listing = collection.facts := by
  ext said
  cases said with
  | home id home => exact home_mem_listing
  | known id => exact known_mem_listing hbuilt.sound.toLockstep
  | relation relation => exact relation_mem_listing
  | detail edge tree =>
      rw [detail_mem_listing, detail_mem_facts]
      constructor
      · exact And.left
      · intro hregistered
        exact ⟨hregistered, hbuilt.detailed edge tree hregistered⟩

/-! ## Merging one collection into another -/

/-- A collection that merges have built can be merged exactly if it contradicts nothing. -/
theorem Built.merge_succeeds_iff (hcollection : Built collection) (hexisting : Sound existing) :
    (∃ merged, existing.afterMerging (merge collection) = .ok merged) ↔
      Consistent (existing.facts ∪ collection.facts) := by
  simp only [afterMerging_eq_ok, merge_eq]
  rw [hexisting.enterAll_succeeds_iff, hcollection.contents_listing]

theorem Sound.enteredAll_merge (hexisting : Sound existing)
    (hmerged : existing.afterMerging (merge collection) = .ok merged) :
    EnteredAll existing collection.listing merged := by
  rw [merge_eq, afterMerging_eq_ok] at hmerged
  exact hexisting.enteredAll hmerged

/-- A merge keeps the homes that are there and records those that were lacking. -/
theorem Sound.home_merge (hexisting : Sound existing)
    (hmerged : existing.afterMerging (merge collection) = .ok merged) (id : DatasetId) :
    merged.home id = (existing.home id).or (collection.home id) :=
  (hexisting.enteredAll_merge hmerged).home_eq fun _ => home_mem_listing

/-- A merge keeps the relations that are there and puts those at the end that were lacking. -/
theorem Sound.relations_merge (hexisting : Sound existing) (hcollection : Lockstep collection)
    (hmerged : existing.afterMerging (merge collection) = .ok merged) :
    merged.relations = existing.relations ++ collection.relations.filter existing.lacks := by
  rw [merge_eq, afterMerging_eq_ok] at hmerged
  have hnodup : (Fact.relations collection.listing).Nodup := by
    rw [relations_listing]
    exact hcollection.nodup_relations
  rw [hexisting.relations_enterAll_of_nodup hnodup hmerged, relations_listing]

/-! ## Strict comparisons -/

/-- A comparison that allows no updates merges the two collections first. -/
theorem acyclic_of_diffAgainst {diff : Diff} (hcollection : Sound collection)
    (hresult : collection.diffAgainst (some existing) false = .ok diff) :
    Acyclic (existing.edges ∪ collection.edges) := by
  obtain ⟨_, hscratch, _⟩ := bind_eq_ok.1 hresult
  obtain ⟨merged, hmerged⟩ := discard_eq_ok.1 hscratch
  rw [afterMerging_eq_ok, merge_eq] at hmerged
  have hentered := hcollection.enteredAll hmerged
  rw [Set.union_comm, ← edgesAmong_listing existing, ← hentered.edges_eq]
  exact hentered.sound.acyclic

theorem compareRecords_of_diffAgainst {diff : Diff}
    (hresult : collection.diffAgainst (some existing) allowUpdates = .ok diff) :
    collection.compareRecords existing allowUpdates = .ok diff := by
  cases allowUpdates with
  | true => exact hresult
  | false =>
      obtain ⟨_, _, hrecords⟩ := bind_eq_ok.1 hresult
      exact hrecords

/-- Where the scratch merge goes through, the comparison finds what is lacking. -/
theorem Built.compareRecords_of_scratch (hcollection : Built collection)
    (hexisting : Built existing) {scratch : Collection}
    (hscratch : collection.afterMerging (merge existing) = .ok scratch) :
    collection.compareRecords existing allowUpdates = .ok (collection.additions existing) := by
  apply compareRecords_eq_additions hexisting.sound.toLockstep
  rw [Set.union_comm, ← hexisting.merge_succeeds_iff hcollection.sound]
  exact ⟨scratch, hscratch⟩

/-- A strict comparison fails as its scratch merge does, and else finds what is lacking. -/
theorem Built.diffAgainst_eq (hcollection : Built collection) (hexisting : Built existing) :
    collection.diffAgainst (some existing) false =
      (collection.afterMerging (merge existing)).map fun _ => collection.additions existing := by
  change (do
    discard <| collection.afterMerging (merge existing)
    collection.compareRecords existing false) = _
  cases hscratch : collection.afterMerging (merge existing) with
  | error error => rfl
  | ok scratch => exact hcollection.compareRecords_of_scratch hexisting hscratch

theorem Built.diffAgainst_eq_error_iff (hcollection : Built collection)
    (hexisting : Built existing) {error : LineageError} :
    collection.diffAgainst (some existing) false = .error error ↔
      collection.afterMerging (merge existing) = .error error := by
  rw [hcollection.diffAgainst_eq hexisting]
  cases collection.afterMerging (merge existing) <;> simp [Except.map]

/-- The scratch merge goes the other way round than the merge it stands for, but both go
through or neither does. -/
theorem Built.diffAgainst_eq_ok_iff (hcollection : Built collection)
    (hexisting : Built existing) {diff : Diff} :
    collection.diffAgainst (some existing) false = .ok diff ↔
      (∃ merged, existing.afterMerging (merge collection) = .ok merged) ∧
        diff = collection.additions existing := by
  rw [hcollection.diffAgainst_eq hexisting, hcollection.merge_succeeds_iff hexisting.sound,
    Set.union_comm, ← hexisting.merge_succeeds_iff hcollection.sound]
  cases collection.afterMerging (merge existing) <;> simp [Except.map, eq_comm]

/-- What the additions say is part of the collection they are taken from. -/
theorem contents_additions_subset (hcollection : Lockstep collection) :
    Fact.contents (collection.additions existing).newRecords.listing ⊆ collection.facts := by
  intro said hsaid
  cases said with
  | home id home =>
      have hadded : (collection.additions existing).homesToAdd.get? id = some home :=
        Snapshot.home_mem_listing.1 hsaid
      rw [get?_homesToAdd_additions] at hadded
      by_cases hrecorded : existing.homes.contains id = true
      · rw [if_pos hrecorded] at hadded
        cases hadded
      · rw [if_neg hrecorded] at hadded
        exact hadded
  | known id =>
      obtain ⟨relation, hmem, hend⟩ := Snapshot.known_mem_listing.1 hsaid
      obtain ⟨hsource, hderived⟩ := hcollection.known relation (List.mem_filter.1 hmem).1
      rcases hend with rfl | rfl
      · exact hsource
      · exact hderived
  | relation relation => exact (List.mem_filter.1 (Snapshot.relation_mem_listing.1 hsaid)).1
  | detail edge tree => exact absurd hsaid Snapshot.detail_not_mem_listing

/-- If a collection can be merged, merging what is lacking alone leads to the same homes and
the same relations, in their order. -/
theorem Built.replay_additions (hcollection : Built collection) (hexisting : Sound existing)
    (hmerged : existing.afterMerging (merge collection) = .ok merged) :
    ∃ replayed, existing.afterMerging (collection.additions existing).replay = .ok replayed ∧
      replayed.homes = merged.homes ∧ replayed.relations = merged.relations := by
  have hconsistent := (hcollection.merge_succeeds_iff hexisting).1 ⟨merged, hmerged⟩
  obtain ⟨replayed, hreplayed⟩ := hexisting.enterAll_succeeds (hconsistent.mono
    (Set.union_subset_union_right _ (contents_additions_subset hcollection.sound.toLockstep)))
  refine ⟨replayed, ?_, ?_, ?_⟩
  · rw [Diff.replay_eq, afterMerging_eq_ok]
    exact hreplayed
  · apply OrderedMap.ext
    intro id
    calc replayed.home id
      _ = (existing.home id).or ((collection.additions existing).homesToAdd.get? id) :=
          (hexisting.enteredAll hreplayed).home_eq fun _ => Snapshot.home_mem_listing
      _ = (existing.home id).or (collection.home id) := by
          rw [get?_homesToAdd_additions, OrderedMap.contains, Collection.home]
          cases existing.homes.get? id <;> rfl
      _ = merged.home id := (hexisting.home_merge hmerged id).symm
  · have hnodup : (Fact.relations (collection.additions existing).newRecords.listing).Nodup := by
      rw [Snapshot.relations_listing]
      exact hcollection.sound.nodup_relations.filter _
    calc replayed.relations
      _ = existing.relations ++ (collection.relations.filter existing.lacks).filter
            existing.lacks := by
          rw [hexisting.relations_enterAll_of_nodup hnodup hreplayed, Snapshot.relations_listing]
          rfl
      _ = existing.relations ++ collection.relations.filter existing.lacks := by
          rw [List.filter_filter]
          simp only [Bool.and_self]
      _ = merged.relations :=
          (hexisting.relations_merge hcollection.sound.toLockstep hmerged).symm

/-- Against an empty collection every record is new. -/
theorem Built.diffAgainst_none (hcollection : Built collection) (allowUpdates : Bool) :
    collection.diffAgainst none allowUpdates =
      collection.diffAgainst (some Collection.empty) allowUpdates := by
  have hconsistent : Consistent (Collection.empty.facts ∪ collection.facts) := by
    rw [facts_empty, Set.empty_union]
    exact hcollection.sound.consistent
  have hrelations : collection.relations.filter Collection.empty.lacks = collection.relations :=
    List.filter_true collection.relations
  have hhomes : (collection.additions Collection.empty).homesToAdd = collection.homes := by
    apply OrderedMap.ext
    intro id
    exact get?_homesToAdd_additions collection Collection.empty id
  have hadditions : collection.additions Collection.empty =
      { relationsToAdd := collection.relations, homesToAdd := collection.homes } := by
    rw [← hhomes, additions, hrelations]
  rw [diffAgainst, diffAgainst, ← hadditions,
    compareRecords_eq_additions lockstep_empty hconsistent]
  cases allowUpdates <;> rfl

/-- A strict comparison is sound and complete.  It goes through exactly if the collection can
be merged into the existing one, and when it fails it reports an error of its scratch merge:
no record is found at fault after that.  It never asks for updates, and merging the records it
adds leads to the homes and the relations of the whole merge, the relations in their order.
A comparison with nothing is one with an empty collection. -/
theorem Built.diffAgainst_sound_and_complete (hcollection : Built collection)
    (hexisting : Built existing) :
    ((∃ diff, collection.diffAgainst (some existing) false = .ok diff) ↔
        ∃ merged, existing.afterMerging (merge collection) = .ok merged) ∧
      (∀ error, collection.diffAgainst (some existing) false = .error error →
        collection.afterMerging (merge existing) = .error error) ∧
      (∀ scratch, collection.afterMerging (merge existing) = .ok scratch →
        ∀ error, collection.compareRecords existing false ≠ .error error) ∧
      (∀ diff, collection.diffAgainst (some existing) false = .ok diff →
        diff.relationsToUpdate = [] ∧ diff.homesToUpdate = OrderedMap.empty ∧
          ∃ merged replayed, existing.afterMerging (merge collection) = .ok merged ∧
            existing.afterMerging diff.replay = .ok replayed ∧
              replayed.homes = merged.homes ∧ replayed.relations = merged.relations) ∧
      ∀ allowUpdates, collection.diffAgainst none allowUpdates =
        collection.diffAgainst (some Collection.empty) allowUpdates := by
  refine ⟨?_, ?_, ?_, ?_, hcollection.diffAgainst_none⟩
  · simp only [hcollection.diffAgainst_eq_ok_iff hexisting, exists_and_left, exists_eq, and_true]
  · intro error herror
    exact (hcollection.diffAgainst_eq_error_iff hexisting).1 herror
  · intro scratch hscratch error herror
    rw [hcollection.compareRecords_of_scratch hexisting hscratch] at herror
    cases herror
  · intro diff hdiff
    obtain ⟨⟨merged, hmerged⟩, rfl⟩ := (hcollection.diffAgainst_eq_ok_iff hexisting).1 hdiff
    obtain ⟨replayed, hreplayed, hsame⟩ := hcollection.replay_additions hexisting.sound hmerged
    exact ⟨rfl, rfl, merged, replayed, hmerged, hreplayed, hsame⟩

/-- Two collections that share a relation.  The diff adds the other relation and the home that
the existing collection lacks. -/
theorem diffAgainst_sound_and_complete_of_overlap :
    ∃ collection existing diff merged replayed, Built collection ∧ Built existing ∧
      collection.relations =
        [⟨"nbar", .numbered 1, .numbered 2⟩, ⟨"bias", .numbered 2, .numbered 3⟩] ∧
      existing.relations = [⟨"nbar", .numbered 1, .numbered 2⟩] ∧
      collection.diffAgainst (some existing) false = .ok diff ∧
      diff.relationsToAdd = [⟨"bias", .numbered 2, .numbered 3⟩] ∧
      diff.homesToAdd.entries = [(.numbered 3, "de")] ∧
      existing.afterMerging (merge collection) = .ok merged ∧
      existing.afterMerging diff.replay = .ok replayed ∧
      replayed.homes = merged.homes ∧ replayed.relations = merged.relations := by
  have hfirst : Built (Collection.empty.insertRelation ⟨"nbar", .numbered 1, .numbered 2⟩) :=
    .change (.relation ⟨"nbar", .numbered 1, .numbered 2⟩) .empty rfl
  have hexisting := Built.change (.home (.numbered 1) (some "ga")) hfirst rfl
  have hmore := Built.change (.relation ⟨"bias", .numbered 2, .numbered 3⟩) hfirst rfl
  have hcollection := Built.change (.home (.numbered 3) (some "de")) hmore rfl
  obtain ⟨hsucceeds, _, _, hreplay, _⟩ :=
    hcollection.diffAgainst_sound_and_complete hexisting
  obtain ⟨diff, hdiff⟩ := hsucceeds.2 ⟨_, rfl⟩
  obtain ⟨_, _, merged, replayed, hmerged, hreplayed, hhomes, hrelations⟩ := hreplay diff hdiff
  obtain ⟨_, rfl⟩ := (hcollection.diffAgainst_eq_ok_iff hexisting).1 hdiff
  exact ⟨_, _, _, merged, replayed, hcollection, hexisting, rfl, rfl, hdiff, rfl, rfl, hmerged,
    hreplayed, hhomes, hrelations⟩

end Collection

end DatasetLineage
