import DatasetLineage.Collection.Compare
import DatasetLineage.Proofs.Collection.Snapshot
import DatasetLineage.Proofs.Collection.Unfolding

/-!
# Collections restored from their snapshots

A snapshot keeps two of the fields of a collection, the homes and the relations.  The
indices of a sound collection say the same as its list of relations, in the same order, so
a collection that is restored from its snapshot answers every query as before.
-/

namespace DatasetLineage

namespace Collection

/-- Two collections have the same records and give the same answers. -/
structure Agrees (left right : Collection) : Prop where
  relations : left.relations = right.relations
  homes : left.homes = right.homes
  classifier : ∀ edge, left.classifier edge = right.classifier edge
  neighbours : ∀ direction id, left.neighbours direction id = right.neighbours direction id
  diff : ∀ allowUpdates, left.diffAgainst none allowUpdates = right.diffAgainst none allowUpdates
  tree : ∀ root direction bound,
    left.extractTreeToDepth root direction bound = right.extractTreeToDepth root direction bound

variable {left right : Collection}

theorem Lockstep.classifier_eq (hleft : Lockstep left) (hright : Lockstep right)
    (hrelations : left.relations = right.relations) (edge : Edge) :
    left.classifier edge = right.classifier edge := by
  apply Option.ext
  intro classifier
  rw [hleft.classifiers, hright.classifiers, hrelations]

theorem Lockstep.neighbours_eq (hleft : Lockstep left) (hright : Lockstep right)
    (hrelations : left.relations = right.relations) (direction : Direction) (id : DatasetId) :
    left.neighbours direction id = right.neighbours direction id := by
  rw [hleft.neighbours, hright.neighbours, hrelations]

/-- Sound collections with the same homes and relations have the same trees. -/
theorem Sound.treeBelow_eq_of_relations_eq (hleft : Sound left) (hright : Sound right)
    (hhomes : left.homes = right.homes) (hrelations : left.relations = right.relations)
    (direction : Direction) (levels : Levels) (id : DatasetId) :
    left.treeBelow direction levels id = right.treeBelow direction levels id := by
  have hdescent := hright.acyclic.wellFounded direction
  induction id using hdescent.induction generalizing levels with
  | _ id ih =>
      have hhome : left.home id = right.home id := by rw [home, home, hhomes]
      have hneighbours :=
        hleft.toLockstep.neighbours_eq hright.toLockstep hrelations direction id
      apply hleft.treeBelow_congr hright hhome hneighbours
      · exact fun _ => Iff.rfl
      · intro next hnext
        exact ih next.id (hright.leads_iff.2 ⟨next, hnext, rfl⟩) levels.next

theorem Sound.agrees (hleft : Sound left) (hright : Sound right)
    (hhomes : left.homes = right.homes) (hrelations : left.relations = right.relations) :
    Agrees left right where
  relations := hrelations
  homes := hhomes
  classifier := hleft.toLockstep.classifier_eq hright.toLockstep hrelations
  neighbours := hleft.toLockstep.neighbours_eq hright.toLockstep hrelations
  diff := by
    intro allowUpdates
    rw [diffAgainst, diffAgainst, hrelations, hhomes]
  tree := by
    intro root direction bound
    rw [hleft.extractTreeToDepth_eq, hright.extractTreeToDepth_eq,
      hleft.treeBelow_eq_of_relations_eq hright hhomes hrelations]

/-- A snapshot is accepted exactly if its relations do not contradict each other, in
whatever order they come, and the collection that comes out has its homes and its relations
without the repeated ones.  The snapshot of a collection that merges have built is accepted,
and what comes out agrees with the collection. -/
theorem Built.toSnapshot_faithful {collection : Collection} (hbuilt : Built collection)
    (snapshot : Snapshot) :
    ((∃ accepted, Collection.ofSnapshot snapshot = .ok accepted) ↔ snapshot.Acceptable) ∧
      (∀ relations : List Relation, relations.Perm snapshot.relations →
        ((∃ accepted, Collection.ofSnapshot { snapshot with relations } = .ok accepted) ↔
          ∃ accepted, Collection.ofSnapshot snapshot = .ok accepted)) ∧
      (∀ accepted, Collection.ofSnapshot snapshot = .ok accepted →
        accepted.homes = snapshot.homes ∧
          accepted.relations = snapshot.relations.eraseDups) ∧
      ∃ restored, Collection.ofSnapshot collection.toSnapshot = .ok restored ∧
        restored.Agrees collection := by
  have hsound := hbuilt.sound
  obtain ⟨restored, hrestored, hrestoredSound, hhomes, hrelations⟩ :=
    @ofSnapshot_succeeds collection.toSnapshot hsound.distinct hsound.acyclic
  refine ⟨ofSnapshot_succeeds_iff snapshot, ?_, ?_, restored, hrestored,
    hrestoredSound.agrees hsound hhomes hrelations⟩
  · intro relations hperm
    rw [ofSnapshot_succeeds_iff, ofSnapshot_succeeds_iff]
    exact ⟨fun hacceptable => hacceptable.of_perm hperm,
      fun hacceptable => hacceptable.of_perm hperm.symm⟩
  · exact fun accepted haccepted => ⟨homes_ofSnapshot haccepted, relations_ofSnapshot haccepted⟩

/-- A snapshot that repeats a relation, and a collection of two relations. -/
theorem toSnapshot_faithful_of_repetition :
    ∃ collection accepted restored, Built collection ∧
      collection.relations =
        [⟨"nbar", .numbered 1, .numbered 2⟩, ⟨"bias", .numbered 2, .numbered 3⟩] ∧
      ofSnapshot ⟨OrderedMap.empty, [⟨"nbar", .numbered 1, .numbered 2⟩,
        ⟨"bias", .numbered 1, .numbered 3⟩, ⟨"nbar", .numbered 1, .numbered 2⟩]⟩ =
          .ok accepted ∧
      accepted.relations =
        [⟨"nbar", .numbered 1, .numbered 2⟩, ⟨"bias", .numbered 1, .numbered 3⟩] ∧
      ofSnapshot collection.toSnapshot = .ok restored ∧ restored.Agrees collection := by
  obtain ⟨collection, hbuilt, hcontents⟩ := @exists_built_of_ascending
    [⟨"nbar", .numbered 1, .numbered 2⟩, ⟨"bias", .numbered 2, .numbered 3⟩]
    (by decide) (by decide)
  let snapshot : Snapshot := ⟨OrderedMap.empty, [⟨"nbar", .numbered 1, .numbered 2⟩,
    ⟨"bias", .numbered 1, .numbered 3⟩, ⟨"nbar", .numbered 1, .numbered 2⟩]⟩
  have hascending : ∀ relation ∈ snapshot.relations,
      relation.source.value < relation.derived.value := by decide
  have hacceptable : snapshot.Acceptable :=
    ⟨by decide, by decide, acyclic_of_ascending hascending⟩
  obtain ⟨haccepts, _, hrecords, restored, hrestored, hagrees⟩ :=
    hbuilt.toSnapshot_faithful snapshot
  obtain ⟨accepted, haccepted⟩ := haccepts.2 hacceptable
  have hrelations := (hrecords accepted haccepted).2
  have hrepeated : snapshot.relations.eraseDups =
      [⟨"nbar", .numbered 1, .numbered 2⟩, ⟨"bias", .numbered 1, .numbered 3⟩] := by
    decide
  exact ⟨collection, accepted, restored, hbuilt, hcontents, haccepted,
    hrelations.trans hrepeated, hrestored, hagrees⟩

end Collection

end DatasetLineage
