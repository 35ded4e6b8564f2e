import DatasetLineage.Proofs.Collection.Comparison
import DatasetLineage.Proofs.Collection.Interrupted
import DatasetLineage.Proofs.Store.Closure
import DatasetLineage.Store.Index

/-!
# What a merge writes

A merge adds the relations of its collection whose edges are not in the stored lineage
around it.  Whether it may change recorded values or not, it goes through only if that
lineage and the new edges have no cycle together.
-/

namespace DatasetLineage

namespace Collection

variable {existing : Collection}

/-- New relations that can be merged into a sound collection close no cycle. -/
theorem Sound.acyclic_of_forM (hexisting : Sound existing) {added : List Relation}
    {extended : Collection}
    (hresult : existing.afterMerging (added.forM mergeRelation) = .ok extended) :
    Acyclic (existing.edges ∪ edgesOf added) := by
  have hmap : enterAll (added.map .relation) = added.forM mergeRelation :=
    enterAll_map .relation added
  rw [afterMerging_eq_ok, ← hmap] at hresult
  have hentered := hexisting.enteredAll hresult
  have hadded : Fact.edgesAmong (Fact.contents (added.map .relation)) = edgesOf added := by
    ext edge
    simp [Fact.mem_edgesAmong, Fact.mem_contents_map, Fact.content, mem_edgesOf]
  rw [← hadded, ← hentered.edges_eq]
  exact hentered.sound.acyclic

/-! ## New relations one after the other -/

section Fresh

variable {added : List Relation}

theorem fresh_insertRelation {relation : Relation} {rest : List Relation}
    (hdistinct : ((relation :: rest).map Relation.edge).Nodup)
    (hfresh : ∀ other ∈ relation :: rest, other.edge ∉ existing.edges) :
    ∀ other ∈ rest, other.edge ∉ (existing.insertRelation relation).edges := by
  intro other hother hmem
  rw [List.map_cons, List.nodup_cons] at hdistinct
  rw [edges_insertRelation] at hmem
  cases hmem with
  | inl hsame => exact hdistinct.1 (List.mem_map.2 ⟨other, hother, hsame⟩)
  | inr hold => exact hfresh other (List.mem_cons_of_mem _ hother) hold

/-- New relations fail to be merged only for a cycle. -/
theorem Lockstep.cycle_of_forM_error (hexisting : Lockstep existing)
    (hdistinct : (added.map Relation.edge).Nodup)
    (hfresh : ∀ relation ∈ added, relation.edge ∉ existing.edges) {error : LineageError}
    {after : Collection} (hresult : added.forM mergeRelation existing = .error error after) :
    ∃ id, error = .cyclicGraph id := by
  induction added generalizing existing with
  | nil => cases hresult
  | cons relation rest ih =>
      have hnone := hexisting.classifier_eq_none.2 (hfresh relation List.mem_cons_self)
      rcases Merging.bind_eq_error.1 hresult with hfirst | ⟨middle, hfirst, hrest⟩
      · rcases hexisting.left_of_mergeRelation_error hfirst with ⟨hrefused, _⟩ | ⟨hcycle, _⟩
        · cases hrefused with
          | loop _ => exact ⟨relation.source, rfl⟩
          | reclassified hrecorded _ =>
              rw [hnone] at hrecorded
              cases hrecorded
        · exact hcycle.2.2
      · rcases mergeRelation_ok_cases hfirst with ⟨hrecorded, _⟩ | ⟨_, rfl⟩
        · rw [hnone] at hrecorded
          cases hrecorded
        · exact ih (hexisting.insertRelation (hfresh relation List.mem_cons_self))
            (List.nodup_cons.1 hdistinct).2 (fresh_insertRelation hdistinct hfresh) hrest

theorem Sound.forM_succeeds (hexisting : Sound existing)
    (hdistinct : (added.map Relation.edge).Nodup)
    (hfresh : ∀ relation ∈ added, relation.edge ∉ existing.edges)
    (hacyclic : Acyclic (existing.edges ∪ edgesOf added)) :
    ∃ extended, existing.afterMerging (added.forM mergeRelation) = .ok extended := by
  simp only [afterMerging_eq_ok]
  induction added generalizing existing with
  | nil => exact ⟨existing, rfl⟩
  | cons relation rest ih =>
      have hnew := hfresh relation List.mem_cons_self
      have hnone := hexisting.classifier_eq_none.2 hnew
      have hedges : (existing.insertRelation relation).edges ∪ edgesOf rest =
          existing.edges ∪ edgesOf (relation :: rest) := by
        rw [edges, relations_insertRelation, edgesOf_append, Set.union_assoc, ← edgesOf_append]
        rfl
      have hentered := edges_insertRelation existing relation
      have hextended : Acyclic (existing.insertRelation relation).edges :=
        hacyclic.mono (hedges ▸ Set.subset_union_left)
      have hfirst : mergeRelation relation existing =
          .ok () (existing.insertRelation relation) := by
        rw [hexisting.mergeRelation_eq_ok_iff, addRelation_of_not_mem hexisting.toLockstep hnew,
          hnone, ← hentered]
        exact ⟨⟨fun _ hsome => absurd hsome.symm (Option.some_ne_none _), hextended⟩, rfl⟩
      obtain ⟨extended, hrest⟩ := ih ⟨hexisting.toLockstep.insertRelation hnew, hextended⟩
        (List.nodup_cons.1 hdistinct).2 (fresh_insertRelation hdistinct hfresh)
        (hedges ▸ hacyclic)
      exact ⟨extended, Merging.bind_eq_ok.2 ⟨_, hfirst, hrest⟩⟩

/-- New relations are merged into a sound collection unless they close a cycle. -/
theorem Sound.forM_mergeRelation_cases (hexisting : Sound existing)
    (hdistinct : (added.map Relation.edge).Nodup)
    (hfresh : ∀ relation ∈ added, relation.edge ∉ existing.edges) :
    (Acyclic (existing.edges ∪ edgesOf added) ∧
        ∃ extended, existing.afterMerging (added.forM mergeRelation) = .ok extended) ∨
      ¬ Acyclic (existing.edges ∪ edgesOf added) ∧
        ∃ id, existing.afterMerging (added.forM mergeRelation) = .error (.cyclicGraph id) := by
  cases hmerged : existing.afterMerging (added.forM mergeRelation) with
  | ok extended => exact .inl ⟨hexisting.acyclic_of_forM hmerged, extended, rfl⟩
  | error error =>
      right
      constructor
      · intro hacyclic
        obtain ⟨extended, hextended⟩ := hexisting.forM_succeeds hdistinct hfresh hacyclic
        rw [hmerged] at hextended
        cases hextended
      · obtain ⟨after, hafter⟩ := afterMerging_eq_error.1 hmerged
        obtain ⟨id, rfl⟩ := hexisting.toLockstep.cycle_of_forM_error hdistinct hfresh hafter
        exact ⟨id, rfl⟩

end Fresh

end Collection

namespace Index

variable {collection existing : Collection} {allowUpdates : Bool}

/-- A collection that a merge checks in full.  One that a failed merge has left behind can have
a cycle of its own, and only a merge with updates would notice that. -/
def FullyChecked (collection : Collection) (allowUpdates : Bool) : Prop :=
  collection.Kept ∧ (allowUpdates = true ∨ Acyclic collection.edges)

theorem FullyChecked.of_built (hbuilt : collection.Built) :
    FullyChecked collection allowUpdates :=
  ⟨hbuilt.kept, .inr hbuilt.sound.acyclic⟩

theorem FullyChecked.sound (hchecked : FullyChecked collection false) :
    Collection.Sound collection :=
  ⟨hchecked.1.lockstep, hchecked.2.resolve_left Bool.false_ne_true⟩

/-- Whatever is planned are the records that are lacking or recorded otherwise. -/
theorem eq_revisions_of_plan {diff : Diff}
    (hresult : plan collection existing allowUpdates = .ok diff) :
    diff = collection.revisions existing := by
  obtain ⟨found, hfound, hcheck⟩ := bind_eq_ok.1 hresult
  have hsame : found = diff := by
    cases allowUpdates with
    | false =>
        cases hcheck
        rfl
    | true =>
        obtain ⟨_, _, hpure⟩ := bind_eq_ok.1 hcheck
        cases hpure
        rfl
  rw [← hsame]
  exact Collection.eq_revisions_of_compareRecords
    (Collection.compareRecords_of_diffAgainst (ok_of_mapError hfound))

/-- A plan with updates is checked for cycles only, and only new relations are put in. -/
theorem plan_permissive (collection existing : Collection) :
    plan collection existing true =
      ((existing.afterMerging
        ((collection.relations.filter existing.lacks).forM Collection.mergeRelation)).mapError
          (Failure.contradiction .extendingStored)).map fun _ => collection.revisions existing := by
  have hcompared : collection.diffAgainst (some existing) true =
      .ok (collection.revisions existing) :=
    Collection.compareRecords_permissive collection existing
  rw [plan, hcompared]
  change (do
    discard <| (existing.afterMerging
      ((collection.relations.filter existing.lacks).forM Collection.mergeRelation)).mapError
        (Failure.contradiction .extendingStored)
    pure (collection.revisions existing)) = _
  cases existing.afterMerging
    ((collection.relations.filter existing.lacks).forM Collection.mergeRelation) <;> rfl

/-- A plan that goes through adds no cycle to the lineage it was checked against. -/
theorem acyclic_of_plan {diff : Diff} (hexisting : Collection.Sound existing)
    (hchecked : FullyChecked collection allowUpdates)
    (hresult : plan collection existing allowUpdates = .ok diff) :
    Acyclic (existing.edges ∪ edgesOf diff.relationsToAdd) := by
  obtain ⟨found, hfound, hcheck⟩ := bind_eq_ok.1 hresult
  cases allowUpdates with
  | false =>
      apply (Collection.acyclic_of_diffAgainst hchecked.sound (ok_of_mapError hfound)).mono
      apply Set.union_subset_union_right
      rw [eq_revisions_of_plan hresult]
      intro edge ⟨relation, hmem, hedge⟩
      exact ⟨relation, (List.mem_filter.1 hmem).1, hedge⟩
  | true =>
      obtain ⟨_, hdiscard, hpure⟩ := bind_eq_ok.1 hcheck
      obtain ⟨extended, hextended⟩ := discard_eq_ok.1 hdiscard
      cases hpure
      exact hexisting.acyclic_of_forM (ok_of_mapError hextended)

end Index

end DatasetLineage
