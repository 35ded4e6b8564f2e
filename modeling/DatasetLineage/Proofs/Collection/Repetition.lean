import DatasetLineage.Proofs.Collection.Arrival

/-!
# Repeated merges

A fact that is held already changes nothing when it is entered again, neither the list of
relations nor an index.  A collection that merges have led to holds what each of them has
entered, however much it has grown since, so any of them can be repeated at any later time and
nothing happens.
-/

namespace DatasetLineage

namespace Collection

variable {collection start merged : Collection}

/-- A dataset that is known already is known as before. -/
theorem add_known_of_contains {id : DatasetId} (hknown : collection.contains id = true) :
    IdSet.add collection.known id = collection.known := by
  apply OrderedMap.ext_contains
  intro other
  rw [IdSet.contains_add]
  constructor
  · rintro (hother | rfl)
    · exact hother
    · exact hknown
  · exact .inl

/-- A fact that a collection holds adds nothing to it. -/
theorem Lockstep.add_eq_self (hlockstep : Lockstep collection) {fact : Fact}
    (hheld : fact.content ⊆ collection.facts) : collection.add fact = collection := by
  cases fact with
  | home id home => exact if_pos (OrderedMap.contains_eq_true.2 ⟨home, hheld rfl⟩)
  | known id => rw [Collection.add, add_known_of_contains (hheld rfl)]
  | relation relation =>
      have hstored : relation ∈ collection.relations := hheld (.inl rfl)
      exact addRelation_of_mem hlockstep (Relation.edge_mem_edgesOf hstored)
  | detail edge tree => exact if_pos (OrderedMap.contains_eq_true.2 ⟨tree, hheld rfl⟩)

theorem Lockstep.addAll_eq_self (hlockstep : Lockstep collection) {facts : List Fact}
    (hheld : Fact.contents facts ⊆ collection.facts) : collection.addAll facts = collection := by
  induction facts with
  | nil => rfl
  | cons fact rest ih =>
      rw [Fact.contents_cons, Set.union_subset_iff] at hheld
      rw [addAll, List.foldl_cons, hlockstep.add_eq_self hheld.1]
      exact ih hheld.2

/-- Facts that a collection holds can be entered again, and change nothing. -/
theorem Sound.enterAll_of_held (hsound : Sound collection) {facts : List Fact}
    (hheld : Fact.contents facts ⊆ collection.facts) :
    enterAll facts collection = .ok () collection := by
  have hconsistent : Consistent (collection.facts ∪ Fact.contents facts) := by
    rw [Set.union_eq_left.2 hheld]
    exact hsound.consistent
  obtain ⟨after, hafter⟩ := hsound.enterAll_succeeds hconsistent
  have hsame : after = collection := by
    rw [(hsound.enteredAll hafter).eq_addAll, hsound.addAll_eq_self hheld]
  rwa [hsame] at hafter

/-- Whether a merge has no fault of its own, and a collection holds all that it enters. -/
structure Absorbs (collection : Collection) (change : Change) : Prop where
  faultless : change.Faultless
  held : Fact.contents change.listing ⊆ collection.facts

theorem Sound.perform_of_absorbs (hsound : Sound collection) {change : Change}
    (habsorbs : collection.Absorbs change) : change.perform collection = .ok () collection :=
  hsound.perform_eq_ok_iff.2 ⟨habsorbs.faultless, hsound.enterAll_of_held habsorbs.held⟩

/-- What a merge has led to absorbs it. -/
theorem Sound.absorbs_of_perform (hsound : Sound collection) {change : Change}
    (hresult : change.perform collection = .ok () merged) : merged.Absorbs change := by
  obtain ⟨hfaultless, hentered⟩ := hsound.perform_eq_ok_iff.1 hresult
  refine ⟨hfaultless, ?_⟩
  rw [(hsound.enteredAll hentered).facts_eq]
  exact Set.subset_union_right

/-- What a collection absorbs, it absorbs after further merges. -/
theorem Sound.absorbs_after (hsound : Sound collection) {absorbed change : Change}
    (habsorbs : collection.Absorbs absorbed)
    (hresult : change.perform collection = .ok () merged) : merged.Absorbs absorbed :=
  ⟨habsorbs.faultless, habsorbs.held.trans (hsound.perform change hresult).2⟩

/-- A run of merges leads to a collection that absorbs each of them, and all that was absorbed
before the run. -/
theorem Sound.absorbs_performAll (hsound : Sound collection) {changes absorbed : List Change}
    (habsorbs : ∀ change ∈ absorbed, collection.Absorbs change)
    (hresult : performAll changes collection = .ok () merged) :
    Sound merged ∧ ∀ change ∈ absorbed ++ changes, merged.Absorbs change := by
  induction changes generalizing collection absorbed with
  | nil =>
      cases hresult
      rw [List.append_nil]
      exact ⟨hsound, habsorbs⟩
  | cons change rest ih =>
      rw [performAll_cons, Merging.bind_eq_ok] at hresult
      obtain ⟨middle, hfirst, hrest⟩ := hresult
      have hmiddle : ∀ other ∈ absorbed ++ [change], middle.Absorbs other := by
        intro other hother
        rcases List.mem_append.1 hother with hold | hnew
        · exact hsound.absorbs_after (habsorbs other hold) hfirst
        · rw [List.mem_singleton.1 hnew]
          exact hsound.absorbs_of_perform hfirst
      have hmerged := ih (hsound.perform change hfirst).1 hmiddle hrest
      rwa [List.append_assoc] at hmerged

/-- At any time of a run of successful merges, every merge that came before can be repeated: it
goes through, and the collection stays exactly as it is. -/
theorem Built.performAll_repeats (hbuilt : Built start) {earlier later : List Change}
    (hresult : start.afterMerging (Collection.performAll (earlier ++ later)) = .ok merged) :
    ∃ middle, start.afterMerging (Collection.performAll earlier) = .ok middle ∧
      (∀ change ∈ earlier, middle.afterMerging change.perform = .ok middle) ∧
      middle.afterMerging (Collection.performAll later) = .ok merged := by
  rw [performAll_append, afterMerging_eq_ok, Merging.bind_eq_ok] at hresult
  obtain ⟨middle, hearlier, hlater⟩ := hresult
  refine ⟨middle, afterMerging_eq_ok.2 hearlier, ?_, afterMerging_eq_ok.2 hlater⟩
  obtain ⟨hmiddle, habsorbs⟩ :=
    hbuilt.sound.absorbs_performAll (List.forall_mem_nil _) hearlier
  intro change hchange
  exact afterMerging_eq_ok.2 (hmiddle.perform_of_absorbs (habsorbs change hchange))

/-- A tree down to one level and a collection are merged again after a relation that goes on
from the tree. -/
theorem performAll_repeats_of_extension :
    ∃ merged,
      empty.afterMerging (performAll [
        .tree (.node .sources (.numbered 3) (some "ga")
          (.populated [("bias", [.leaf (.numbered 2) .sources])])) 1,
        .collection (empty.insertRelation ⟨"nbar", .numbered 1, .numbered 2⟩),
        .relation ⟨"nbar", .numbered 3, .numbered 4⟩]) = .ok merged ∧
      merged.afterMerging (mergeTree (.node .sources (.numbered 3) (some "ga")
        (.populated [("bias", [.leaf (.numbered 2) .sources])])) 1) = .ok merged ∧
      merged.afterMerging (merge (empty.insertRelation ⟨"nbar", .numbered 1, .numbered 2⟩)) =
        .ok merged := by
  let tree : Change := .tree (.node .sources (.numbered 3) (some "ga")
    (.populated [("bias", [.leaf (.numbered 2) .sources])])) 1
  let other : Change := .collection (empty.insertRelation ⟨"nbar", .numbered 1, .numbered 2⟩)
  let extension : Change := .relation ⟨"nbar", .numbered 3, .numbered 4⟩
  obtain ⟨merged, hmerged⟩ :
      ∃ merged, empty.afterMerging (performAll ([tree, other, extension] ++ [])) = .ok merged := by
    simp only [afterMerging_eq_ok, sound_empty.performAll_eq_ok_iff]
    have hfaultless : ∀ change ∈ [tree, other, extension], change.Faultless := by decide
    exact ⟨_, hfaultless, rfl⟩
  obtain ⟨middle, hmiddle, hrepeats, hlater⟩ := Built.empty.performAll_repeats hmerged
  cases hlater
  exact ⟨_, hmiddle, hrepeats tree (by simp), hrepeats other (by simp)⟩

end Collection

end DatasetLineage
