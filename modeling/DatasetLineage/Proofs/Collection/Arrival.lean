import DatasetLineage.Proofs.Collection.Built
import DatasetLineage.Proofs.Collection.Order

/-!
# The order of arrival

Merges may arrive in any order.  Each of them is checked against what has arrived before it,
but a list of merges goes through exactly if none of them has a fault of its own and all that
they say together is consistent.  So every order of the list goes through if one does, and
the collections that come out hold the same facts.  They differ only in the order in which
they list relations and neighbours.
-/

namespace DatasetLineage

/-- What a list of facts says does not depend on its order. -/
theorem Fact.contents_eq_of_perm {facts permuted : List Fact} (hperm : facts.Perm permuted) :
    contents facts = contents permuted := by
  ext said
  change (∃ fact ∈ facts, said ∈ fact.content) ↔ ∃ fact ∈ permuted, said ∈ fact.content
  simp only [hperm.mem_iff]

namespace Collection

/-- Two collections that differ at most in the order of their relations and neighbours. -/
structure Alike (left right : Collection) : Prop where
  homes : left.homes = right.homes
  relations : left.relations.Perm right.relations
  classifiers : left.classifiers = right.classifiers
  neighbours : ∀ direction id,
    (left.neighbours direction id).Perm (right.neighbours direction id)
  known : left.known = right.known
  details : left.details = right.details

/-- Facts determine a sound collection up to the order of its relations. -/
theorem Sound.alike {left right : Collection} (hleft : Sound left) (hright : Sound right)
    (hfacts : left.facts = right.facts) : Alike left right := by
  have hrelations : ∀ relation, relation ∈ left.relations ↔ relation ∈ right.relations := by
    intro relation
    rw [← relation_mem_facts, hfacts, relation_mem_facts]
  constructor
  · apply homes_eq
    intro id home
    rw [hfacts]
    exact home_mem_facts
  · rw [List.perm_ext_iff_of_nodup hleft.nodup_relations hright.nodup_relations]
    exact hrelations
  · apply OrderedMap.ext_some
    intro edge classifier
    exact (hleft.classifiers edge classifier).trans
      ((hrelations _).trans (hright.classifiers edge classifier).symm)
  · intro direction id
    rw [List.perm_ext_iff_of_nodup (hleft.nodup_neighbours direction id)
      (hright.nodup_neighbours direction id)]
    intro neighbour
    rw [hleft.mem_neighbours, hrelations, hright.mem_neighbours]
  · apply OrderedMap.ext_contains
    intro id
    change Fact.known id ∈ left.facts ↔ Fact.known id ∈ right.facts
    rw [hfacts]
  · apply OrderedMap.ext_some
    intro edge tree
    change Fact.detail edge tree ∈ left.facts ↔ Fact.detail edge tree ∈ right.facts
    rw [hfacts]

/-! ## Lists of merges -/

variable {collection merged : Collection} {changes permuted : List Change}

/-- A list of merges enters the facts of all of them, unless one has a fault of its own. -/
theorem Sound.performAll_eq_ok_iff (hsound : Sound collection) :
    performAll changes collection = .ok () merged ↔
      (∀ change ∈ changes, change.Faultless) ∧
        enterAll (changes.flatMap Change.listing) collection = .ok () merged := by
  induction changes generalizing collection with
  | nil => simp [performAll, enterAll]
  | cons change rest ih =>
      rw [performAll_cons, List.flatMap_cons, enterAll_append, Merging.bind_eq_ok,
        Merging.bind_eq_ok, List.forall_mem_cons]
      constructor
      · rintro ⟨middle, hfirst, hrest⟩
        obtain ⟨hfaultless, hentered⟩ := hsound.perform_eq_ok_iff.1 hfirst
        obtain ⟨hothers, hrest⟩ := (ih (hsound.enteredAll hentered).sound).1 hrest
        exact ⟨⟨hfaultless, hothers⟩, middle, hentered, hrest⟩
      · rintro ⟨⟨hfaultless, hothers⟩, middle, hentered, hrest⟩
        refine ⟨middle, hsound.perform_eq_ok_iff.2 ⟨hfaultless, hentered⟩, ?_⟩
        exact (ih (hsound.enteredAll hentered).sound).2 ⟨hothers, hrest⟩

/-- Merges go through in any order if they do in one, and what comes out differs at most in
the order in which relations and neighbours are listed. -/
theorem performAll_of_perm (hperm : changes.Perm permuted)
    (hresult : empty.afterMerging (performAll changes) = .ok merged) :
    ∃ other, empty.afterMerging (performAll permuted) = .ok other ∧ Alike merged other := by
  rw [afterMerging_eq_ok, sound_empty.performAll_eq_ok_iff] at hresult
  obtain ⟨hfaultless, hentered⟩ := hresult
  have hmerged := sound_empty.enteredAll hentered
  have hcontents : Fact.contents (changes.flatMap Change.listing) =
      Fact.contents (permuted.flatMap Change.listing) :=
    Fact.contents_eq_of_perm (hperm.flatMap_right _)
  -- The facts of the two lists are consistent together or not, whatever their order.
  have hconsistent : Consistent (empty.facts ∪
      Fact.contents (permuted.flatMap Change.listing)) := by
    rw [← hcontents, ← hmerged.facts_eq]
    exact hmerged.sound.consistent
  obtain ⟨other, hother⟩ := sound_empty.enterAll_succeeds hconsistent
  have hafter := sound_empty.enteredAll hother
  refine ⟨other, ?_, hmerged.sound.alike hafter.sound ?_⟩
  · rw [afterMerging_eq_ok, sound_empty.performAll_eq_ok_iff]
    exact ⟨fun change hchange => hfaultless change (hperm.mem_iff.2 hchange), hother⟩
  · calc merged.facts
      _ = empty.facts ∪ Fact.contents (changes.flatMap Change.listing) := hmerged.facts_eq
      _ = empty.facts ∪ Fact.contents (permuted.flatMap Change.listing) := by rw [hcontents]
      _ = other.facts := hafter.facts_eq.symm

/-- A tree that joins two relations.  Coming first it brings its datasets along; coming last
it links two that are known, so a cycle is looked for. -/
theorem performAll_of_perm_of_bridge :
    ∃ merged other,
      empty.afterMerging (performAll [.tree (.node .sources (.numbered 3) (some "ga")
          (.populated [("bias", [.leaf (.numbered 2) .sources])])) 0,
        .relation ⟨"nbar", .numbered 1, .numbered 2⟩,
        .relation ⟨"nbar", .numbered 3, .numbered 4⟩]) = .ok merged ∧
      empty.afterMerging (performAll [.relation ⟨"nbar", .numbered 3, .numbered 4⟩,
        .relation ⟨"nbar", .numbered 1, .numbered 2⟩,
        .tree (.node .sources (.numbered 3) (some "ga")
          (.populated [("bias", [.leaf (.numbered 2) .sources])])) 0]) = .ok other ∧
      Alike merged other := by
  let bridge : Change := .tree (.node .sources (.numbered 3) (some "ga")
    (.populated [("bias", [.leaf (.numbered 2) .sources])])) 0
  let left : Change := .relation ⟨"nbar", .numbered 1, .numbered 2⟩
  let right : Change := .relation ⟨"nbar", .numbered 3, .numbered 4⟩
  have hbridge : bridge.Faultless := by
    refine ⟨Tree.childDatasets_succeeds_iff.1 ⟨_, rfl⟩, fun error hfault => ?_⟩
    simp [Tree.leaf, Tree.entries, Tree.groupsEntries, Tree.listEntries, Entry.ofNode,
      Entry.ofLink, Tree.direction, Tree.children, Children.hasDetail, Levels.ofBound] at hfault
  have hmerged : ∃ merged, empty.afterMerging (performAll [bridge, left, right]) = .ok merged := by
    simp only [afterMerging_eq_ok, sound_empty.performAll_eq_ok_iff]
    have hfaultless : ∀ change ∈ [bridge, left, right], change.Faultless := by
      rw [List.forall_mem_cons, List.forall_mem_cons, List.forall_mem_singleton]
      exact ⟨hbridge, trivial, trivial⟩
    exact ⟨_, hfaultless, rfl⟩
  obtain ⟨merged, hmerged⟩ := hmerged
  have hperm : [bridge, left, right].Perm [right, left, bridge] :=
    (List.reverse_perm [bridge, left, right]).symm
  obtain ⟨other, hother, halike⟩ := performAll_of_perm hperm hmerged
  exact ⟨merged, other, hmerged, hother, halike⟩

end Collection

end DatasetLineage
