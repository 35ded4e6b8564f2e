import DatasetLineage.Proofs.Collection.Arrival
import DatasetLineage.Proofs.Collection.Comparison
import DatasetLineage.Proofs.Collection.Restored

/-!
# Merging in stages

A collection that merges have built is determined by its facts and the order of its relations,
down to the last index.  So the merge of one collection into another is determined as well: it
holds the facts of both, and lists the relations of the first before those that only the second
has.  It follows that it makes no difference in which stages collections are merged, and that
the empty collection adds nothing.
-/

namespace DatasetLineage

namespace Collection

/-! ## Indices without empty lists -/

def NoneEmpty (index : OrderedMap DatasetId (List Neighbour)) : Prop :=
  ∀ id, index.get? id ≠ some []

theorem NoneEmpty.pushNeighbour {index : OrderedMap DatasetId (List Neighbour)}
    (hindex : NoneEmpty index) (id : DatasetId) (neighbour : Neighbour) :
    NoneEmpty (pushNeighbour index id neighbour) := by
  intro other
  rw [Collection.pushNeighbour, OrderedMap.get?_insert]
  split
  · simp
  · exact hindex other

/-- Such indices are determined by the lists that are looked up in them. -/
theorem NoneEmpty.ext {left right : OrderedMap DatasetId (List Neighbour)}
    (hleft : NoneEmpty left) (hright : NoneEmpty right)
    (hlists : ∀ id, neighboursIn left id = neighboursIn right id) : left = right := by
  apply OrderedMap.ext
  intro id
  have hlist := hlists id
  rw [neighboursIn, neighboursIn] at hlist
  cases hfirst : left.get? id with
  | none =>
      cases hsecond : right.get? id with
      | none => rfl
      | some neighbours =>
          rw [hfirst, hsecond] at hlist
          exact absurd (hsecond.trans (congrArg some hlist.symm)) (hright id)
  | some neighbours =>
      cases hsecond : right.get? id with
      | none =>
          rw [hfirst, hsecond] at hlist
          exact absurd (hfirst.trans (congrArg some hlist)) (hleft id)
      | some others =>
          rw [hfirst, hsecond] at hlist
          exact congrArg some hlist

/-- The indices of neighbours have no entries for datasets without neighbours. -/
structure Tight (collection : Collection) : Prop where
  bySource : NoneEmpty collection.bySource
  byDerived : NoneEmpty collection.byDerived

theorem tight_empty : Tight empty := by
  constructor <;> intro id hentry <;> cases hentry

variable {collection merged : Collection}

theorem Tight.add (htight : Tight collection) (fact : Fact) : Tight (collection.add fact) := by
  cases fact with
  | home id home =>
      rw [Collection.add]
      split
      · exact htight
      · exact ⟨htight.bySource, htight.byDerived⟩
  | known id => exact ⟨htight.bySource, htight.byDerived⟩
  | relation relation =>
      rw [Collection.add, addRelation]
      split
      · exact htight
      · exact ⟨htight.bySource.pushNeighbour _ _, htight.byDerived.pushNeighbour _ _⟩
  | detail edge tree =>
      rw [Collection.add]
      split
      · exact htight
      · exact ⟨htight.bySource, htight.byDerived⟩

theorem Tight.addAll (htight : Tight collection) (facts : List Fact) :
    Tight (collection.addAll facts) := by
  induction facts generalizing collection with
  | nil => exact htight
  | cons fact rest ih => exact ih (htight.add fact)

theorem Built.tight (hbuilt : Built collection) : Tight collection := by
  have hboth : Sound collection ∧ Tight collection := by
    apply hbuilt.induction ⟨sound_empty, tight_empty⟩
    intro change before after ⟨hsound, htight⟩ hresult
    have hentered := hsound.enteredAll (hsound.perform_eq_ok_iff.1 hresult).2
    refine ⟨hentered.sound, ?_⟩
    rw [hentered.eq_addAll]
    exact htight.addAll _
  exact hboth.2

/-- Merges build one collection at most with given facts and relations in a given order. -/
theorem Built.eq_of_facts_eq {left right : Collection} (hleft : Built left) (hright : Built right)
    (hfacts : left.facts = right.facts) (hrelations : left.relations = right.relations) :
    left = right := by
  obtain ⟨hhomes, _, hclassifiers, _, hknown, hdetails⟩ := hleft.sound.alike hright.sound hfacts
  have hneighbours := hleft.sound.neighbours_eq hright.sound.toLockstep hrelations
  have hsource := hleft.tight.bySource.ext hright.tight.bySource (hneighbours .derived)
  have hderived := hleft.tight.byDerived.ext hright.tight.byDerived (hneighbours .sources)
  cases left
  cases right
  cases hhomes
  cases hrelations
  cases hclassifiers
  cases hsource
  cases hderived
  cases hknown
  cases hdetails
  rfl

/-! ## Merging two collections, and three -/

variable {first second third : Collection}

/-- A collection that holds the facts of two others, with the relations of the first before those
of the second. -/
structure Joins (first second merged : Collection) : Prop where
  built : Built merged
  facts_eq : merged.facts = first.facts ∪ second.facts
  relations_eq : merged.relations = (first.relations ++ second.relations).eraseDups

theorem Joins.unique {other : Collection} (hjoins : Joins first second merged)
    (hother : Joins first second other) : merged = other :=
  hjoins.built.eq_of_facts_eq hother.built (hjoins.facts_eq.trans hother.facts_eq.symm)
    (hjoins.relations_eq.trans hother.relations_eq.symm)

theorem Built.joins_of_merge (hfirst : Built first) (hsecond : Built second)
    (hmerged : first.afterMerging (merge second) = .ok merged) : Joins first second merged where
  built := hfirst.change (.collection second) hmerged
  facts_eq := by rw [(hfirst.sound.enteredAll_merge hmerged).facts_eq, hsecond.contents_listing]
  relations_eq := by
    rw [afterMerging_eq_ok, merge_eq] at hmerged
    rw [hfirst.sound.relations_enterAll hmerged, relations_listing]

/-- Collections that do not contradict each other can be joined. -/
theorem Built.exists_joins (hfirst : Built first) (hsecond : Built second)
    (hconsistent : Consistent (first.facts ∪ second.facts)) :
    ∃ merged, first.afterMerging (merge second) = .ok merged ∧ Joins first second merged := by
  obtain ⟨merged, hmerged⟩ := (hsecond.merge_succeeds_iff hfirst.sound).2 hconsistent
  exact ⟨merged, hmerged, hfirst.joins_of_merge hsecond hmerged⟩

/-- A merge joins two collections. -/
theorem Built.merge_eq_ok_iff (hfirst : Built first) (hsecond : Built second) :
    first.afterMerging (merge second) = .ok merged ↔ Joins first second merged := by
  constructor
  · exact hfirst.joins_of_merge hsecond
  · intro hjoins
    have hconsistent : Consistent (first.facts ∪ second.facts) := by
      rw [← hjoins.facts_eq]
      exact hjoins.built.sound.consistent
    obtain ⟨other, hmerge, hother⟩ := hfirst.exists_joins hsecond hconsistent
    rwa [hjoins.unique hother]

/-- What is joined with a third collection last can be joined with it first. -/
theorem Joins.rotate {middle : Collection} (hsecond : Built second) (hthird : Built third)
    (hmiddle : Joins first second middle) (hmerged : Joins middle third merged) :
    ∃ other, Joins second third other ∧ Joins first other merged := by
  have hfacts : merged.facts = first.facts ∪ (second.facts ∪ third.facts) := by
    rw [hmerged.facts_eq, hmiddle.facts_eq, Set.union_assoc]
  have hconsistent : Consistent (second.facts ∪ third.facts) := by
    apply hmerged.built.sound.consistent.mono
    rw [hfacts]
    exact Set.subset_union_right
  obtain ⟨other, _, hother⟩ := hsecond.exists_joins hthird hconsistent
  refine ⟨other, hother, hmerged.built, ?_, ?_⟩
  · rw [hfacts, hother.facts_eq]
  · rw [hmerged.relations_eq, hmiddle.relations_eq, hother.relations_eq,
      eraseDups_append_eraseDups, eraseDups_append_eraseDups_right, List.append_assoc]

theorem Joins.rotate_back {middle : Collection} (hfirst : Built first) (hsecond : Built second)
    (hmiddle : Joins second third middle) (hmerged : Joins first middle merged) :
    ∃ other, Joins first second other ∧ Joins other third merged := by
  have hfacts : merged.facts = first.facts ∪ second.facts ∪ third.facts := by
    rw [hmerged.facts_eq, hmiddle.facts_eq, Set.union_assoc]
  have hconsistent : Consistent (first.facts ∪ second.facts) := by
    apply hmerged.built.sound.consistent.mono
    rw [hfacts]
    exact Set.subset_union_left
  obtain ⟨other, _, hother⟩ := hfirst.exists_joins hsecond hconsistent
  refine ⟨other, hother, hmerged.built, ?_, ?_⟩
  · rw [hfacts, hother.facts_eq]
  · rw [hmerged.relations_eq, hmiddle.relations_eq, hother.relations_eq,
      eraseDups_append_eraseDups, eraseDups_append_eraseDups_right, List.append_assoc]

theorem Built.merge_into_empty (hbuilt : Built collection) :
    Collection.empty.afterMerging (merge collection) = .ok collection := by
  rw [Built.empty.merge_eq_ok_iff hbuilt]
  refine ⟨hbuilt, ?_, (eraseDups_of_nodup hbuilt.sound.nodup_relations).symm⟩
  rw [facts_empty, Set.empty_union]

theorem Built.merge_empty (hbuilt : Built collection) :
    collection.afterMerging (merge Collection.empty) = .ok collection := by
  rw [hbuilt.merge_eq_ok_iff .empty]
  refine ⟨hbuilt, ?_, ?_⟩
  · rw [facts_empty, Set.union_empty]
  · change _ = (collection.relations ++ []).eraseDups
    rw [List.append_nil, eraseDups_of_nodup hbuilt.sound.nodup_relations]

theorem afterMerging_congr {start : Collection} {change other : Merging Unit}
    (hsame : change start = other collection) :
    start.afterMerging change = collection.afterMerging other := by
  rw [afterMerging, afterMerging, hsame]

/-- A tree that is merged into a copy is merged into the collection itself. -/
theorem Built.ofCopyAndTree_eq (hbuilt : Built collection) (tree : Option Tree) (bound : Nat) :
    Collection.ofCopyAndTree (some collection) tree bound =
      collection.afterMerging (tree.forM (mergeTree · bound)) := by
  have hcopy := afterMerging_eq_ok.1 hbuilt.merge_into_empty
  have hstages : (do merge collection; tree.forM (mergeTree · bound)) Collection.empty =
      tree.forM (mergeTree · bound) collection := by
    change EStateM.bind _ _ _ = _
    rw [EStateM.bind, hcopy]
  exact afterMerging_congr hstages

/-- Merging is associative, and the empty collection is its identity.  A third collection goes
in after a second one exactly if what the two come to goes in, and the collections that come out
are the same in every part.  A collection that is merged into the empty one, as for a copy, or
the empty one into it, stays exactly as it is. -/
theorem Built.merge_assoc (hfirst : Built first) (hsecond : Built second) (hthird : Built third) :
    (∀ merged,
      (∃ middle, first.afterMerging (merge second) = .ok middle ∧
        middle.afterMerging (merge third) = .ok merged) ↔
      ∃ middle, second.afterMerging (merge third) = .ok middle ∧
        first.afterMerging (merge middle) = .ok merged) ∧
      Collection.empty.afterMerging (merge first) = .ok first ∧
      first.afterMerging (merge Collection.empty) = .ok first ∧
      ∀ tree bound, Collection.ofCopyAndTree (some first) tree bound =
        first.afterMerging (tree.forM (mergeTree · bound)) := by
  refine ⟨fun merged => ?_, hfirst.merge_into_empty, hfirst.merge_empty, hfirst.ofCopyAndTree_eq⟩
  constructor
  · rintro ⟨middle, hmiddle, hmerged⟩
    have hjoins := hfirst.joins_of_merge hsecond hmiddle
    obtain ⟨other, hother, hsame⟩ :=
      hjoins.rotate hsecond hthird (hjoins.built.joins_of_merge hthird hmerged)
    exact ⟨other, (hsecond.merge_eq_ok_iff hthird).2 hother,
      (hfirst.merge_eq_ok_iff hother.built).2 hsame⟩
  · rintro ⟨middle, hmiddle, hmerged⟩
    have hjoins := hsecond.joins_of_merge hthird hmiddle
    obtain ⟨other, hother, hsame⟩ :=
      hjoins.rotate_back hfirst hsecond (hfirst.joins_of_merge hjoins.built hmerged)
    exact ⟨other, (hfirst.merge_eq_ok_iff hsecond).2 hother,
      (hother.built.merge_eq_ok_iff hthird).2 hsame⟩

/-- Three relations in a row, each in a collection of its own. -/
theorem merge_assoc_of_chain :
    ∃ middle merged,
      (empty.insertRelation ⟨"nbar", .numbered 2, .numbered 3⟩).afterMerging
          (merge (empty.insertRelation ⟨"bias", .numbered 3, .numbered 4⟩)) = .ok middle ∧
      (empty.insertRelation ⟨"nbar", .numbered 1, .numbered 2⟩).afterMerging (merge middle) =
        .ok merged ∧
      merged.relations = [⟨"nbar", .numbered 1, .numbered 2⟩, ⟨"nbar", .numbered 2, .numbered 3⟩,
        ⟨"bias", .numbered 3, .numbered 4⟩] := by
  have hfirst : Built (empty.insertRelation ⟨"nbar", .numbered 1, .numbered 2⟩) :=
    .change (.relation ⟨"nbar", .numbered 1, .numbered 2⟩) .empty rfl
  have hsecond : Built (empty.insertRelation ⟨"nbar", .numbered 2, .numbered 3⟩) :=
    .change (.relation ⟨"nbar", .numbered 2, .numbered 3⟩) .empty rfl
  have hthird : Built (empty.insertRelation ⟨"bias", .numbered 3, .numbered 4⟩) :=
    .change (.relation ⟨"bias", .numbered 3, .numbered 4⟩) .empty rfl
  obtain ⟨hassoc, _⟩ := hfirst.merge_assoc hsecond hthird
  obtain ⟨middle, hmiddle, hmerged⟩ := (hassoc _).1 ⟨_, rfl, rfl⟩
  exact ⟨middle, _, hmiddle, hmerged, rfl⟩

end Collection

end DatasetLineage
