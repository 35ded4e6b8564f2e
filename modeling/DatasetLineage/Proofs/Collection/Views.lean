import DatasetLineage.Proofs.Collection.Detail
import DatasetLineage.Proofs.Collection.Snapshot

/-!
# Two views of one lineage

A view towards the sources of one dataset and a view towards what was derived from another
show some relations from both ends.  Such a relation has one detailed subtree in each view,
rooted at its source in one of them and at its derived end in the other, and a collection
takes only one for each edge.  So the two views can be merged together exactly if no
relation has detail in both of them, and then the order in which they come plays no part.
-/

namespace DatasetLineage

/-- A relation in reach of both roots goes on at either end: its source has sources, and
more was derived from its derived end. -/
def DetailedTwice (edges : Set Edge) (sink origin : DatasetId) : Prop :=
  ∃ source derived, ⟨source, derived⟩ ∈ edges ∧
    Reaches edges .sources sink derived ∧ Reaches edges .derived origin source ∧
      (∃ before, ⟨before, source⟩ ∈ edges) ∧ ∃ after, ⟨derived, after⟩ ∈ edges

namespace Collection

variable {collection : Collection} {direction : Direction} {root : DatasetId}

def statedBy (trees : List Tree) : Set Fact :=
  {fact | ∃ tree ∈ trees, fact ∈ tree.facts 0}

theorem statedBy_pair {trees : List Tree} {left right : Tree} (hperm : trees.Perm [left, right]) :
    statedBy trees = left.facts 0 ∪ right.facts 0 := by
  ext fact
  change (∃ tree ∈ trees, fact ∈ tree.facts 0) ↔ _
  simp [hperm.mem_iff]

/-- Trees without a fault of their own enter what they state. -/
theorem forM_mergeTree_eq_ok_iff {trees : List Tree} {merged : Collection}
    (htrees : ∀ tree ∈ trees, tree.NonRepeating ∧ tree.OneDirection 0) :
    empty.afterMerging (trees.forM (mergeTree · 0)) = .ok merged ↔
      enterAll (trees.flatMap fun tree => (Change.tree tree 0).listing) empty = .ok () merged := by
  have hfaultless : ∀ change ∈ trees.map (Change.tree · 0), change.Faultless := by
    intro change hchange
    obtain ⟨tree, htree, rfl⟩ := List.mem_map.1 hchange
    obtain ⟨hrepeats, hdirection⟩ := htrees tree htree
    exact ⟨hrepeats, Tree.oneDirection_iff_entries.1 hdirection⟩
  have hforM : trees.forM (mergeTree · 0) = performAll (trees.map (Change.tree · 0)) :=
    (performAll_map (Change.tree · 0) trees).symm
  rw [hforM, afterMerging_eq_ok, sound_empty.performAll_eq_ok_iff, List.flatMap_map]
  exact and_iff_right hfaultless

theorem contents_listing_trees {trees : List Tree}
    (htrees : ∀ tree ∈ trees, tree.OneDirection 0) :
    Fact.contents (trees.flatMap fun tree => (Change.tree tree 0).listing) = statedBy trees := by
  ext fact
  rw [Fact.mem_contents_flatMap]
  apply exists_congr
  intro tree
  apply and_congr_right
  intro htree
  rw [← Tree.contents_entries (htrees tree htree)]
  rfl

/-- Trees can be merged together exactly if what they state is consistent, and what comes
out holds what they state. -/
theorem forM_mergeTree_succeeds_iff {trees : List Tree}
    (htrees : ∀ tree ∈ trees, tree.NonRepeating ∧ tree.OneDirection 0) :
    (∃ merged, empty.afterMerging (trees.forM (mergeTree · 0)) = .ok merged) ↔
      Consistent (statedBy trees) := by
  simp only [forM_mergeTree_eq_ok_iff htrees, sound_empty.enterAll_succeeds_iff, facts_empty,
    Set.empty_union, contents_listing_trees fun tree htree => (htrees tree htree).2]

theorem facts_of_forM_mergeTree {trees : List Tree} {merged : Collection}
    (htrees : ∀ tree ∈ trees, tree.NonRepeating ∧ tree.OneDirection 0)
    (hresult : empty.afterMerging (trees.forM (mergeTree · 0)) = .ok merged) :
    merged.facts = statedBy trees := by
  rw [forM_mergeTree_eq_ok_iff htrees] at hresult
  rw [(sound_empty.enteredAll hresult).facts_eq, facts_empty, Set.empty_union,
    contents_listing_trees fun tree htree => (htrees tree htree).2]

/-! ## The detail of a view -/

/-- The detailed subtree of a relation in a view is the whole tree of its far end. -/
theorem Sound.detail_mem_view_iff (hsound : Sound collection) {edge : Edge} {tree : Tree} :
    .detail edge tree ∈ (collection.treeBelow direction none root).facts 0 ↔
      ∃ parent child, Reaches collection.edges direction root parent ∧
        Leads collection.edges direction parent child ∧ edge = direction.edge parent child ∧
          tree = collection.treeBelow direction none child ∧
            ∃ next, Leads collection.edges direction child next := by
  rw [hsound.detail_mem_facts_treeBelow_iff]
  constructor
  · rintro ⟨depth, parent, child, _, hpath, hstep, hedge, rfl, hdetail⟩
    have hnext := (hsound.hasDetail_treeBelow.1 hdetail).2
    exact ⟨parent, child, hpath.reaches, hstep, hedge, rfl, hnext⟩
  · rintro ⟨parent, child, hpath, hstep, hedge, rfl, hnext⟩
    obtain ⟨depth, hpath⟩ := exists_reachesIn hpath
    have hlevels : (none : Levels) ≠ some 0 := (Option.some_ne_none 0).symm
    exact ⟨depth, parent, child, Levels.allows_none, hpath, hstep, hedge, rfl,
      hsound.hasDetail_treeBelow.2 ⟨hlevels, hnext⟩⟩

/-- Both views give detail of one relation exactly if it goes on at either end. -/
theorem Sound.detail_in_both_views_iff (hsound : Sound collection) {sink origin : DatasetId} :
    (∃ edge left right,
      .detail edge left ∈ (collection.treeBelow .sources none sink).facts 0 ∧
        .detail edge right ∈ (collection.treeBelow .derived none origin).facts 0) ↔
      DetailedTwice collection.edges sink origin := by
  constructor
  · intro ⟨edge, left, right, hleft, hright⟩
    obtain ⟨derived, source, hsink, hedge, rfl, _, hbefore⟩ := hsound.detail_mem_view_iff.1 hleft
    obtain ⟨parent, child, horigin, _, hsame, _, hafter⟩ := hsound.detail_mem_view_iff.1 hright
    cases hsame
    exact ⟨source, derived, hedge, hsink, horigin, hbefore, hafter⟩
  · intro ⟨source, derived, hedge, hsink, horigin, hbefore, hafter⟩
    exact ⟨⟨source, derived⟩, _, _,
      hsound.detail_mem_view_iff.2 ⟨derived, source, hsink, hedge, rfl, rfl, hbefore⟩,
      hsound.detail_mem_view_iff.2 ⟨source, derived, horigin, hedge, rfl, rfl, hafter⟩⟩

/-- One view has one detailed subtree for each edge. -/
theorem Sound.eq_of_detail_mem_view (hsound : Sound collection) {edge : Edge} {left right : Tree}
    (hleft : .detail edge left ∈ (collection.treeBelow direction none root).facts 0)
    (hright : .detail edge right ∈ (collection.treeBelow direction none root).facts 0) :
    left = right :=
  hsound.consistent_treeBelow.details edge left right hleft hright

/-! ## Merging two views -/

section Views

variable {sink origin : DatasetId}

theorem Sound.consistent_views_iff (hsound : Sound collection) :
    Consistent ((collection.treeBelow .sources none sink).facts 0 ∪
        (collection.treeBelow .derived none origin).facts 0) ↔
      ¬ DetailedTwice collection.edges sink origin := by
  have hbacks := (hsound.backs_treeBelow .sources none sink).union
    (hsound.backs_treeBelow .derived none origin)
  rw [hsound.consistent_iff_details hbacks, ← hsound.detail_in_both_views_iff]
  constructor
  · intro hdetails ⟨edge, left, right, hleft, hright⟩
    have heq := hdetails edge left right (.inl hleft) (.inr hright)
    obtain ⟨_, _, _, _, _, hsource, _⟩ := hsound.detail_mem_view_iff.1 hleft
    obtain ⟨_, _, _, _, _, hderived, _⟩ := hsound.detail_mem_view_iff.1 hright
    -- The two subtrees are rooted at different ends and read in different directions.
    have hdirections := congrArg Tree.direction (hsource.symm.trans (heq.trans hderived))
    rw [hsound.direction_treeBelow, hsound.direction_treeBelow] at hdirections
    cases hdirections
  · intro hnone edge left right hleft hright
    rcases hleft with hleft | hleft <;> rcases hright with hright | hright
    · exact hsound.eq_of_detail_mem_view hleft hright
    · exact absurd ⟨edge, left, right, hleft, hright⟩ hnone
    · exact absurd ⟨edge, right, left, hright, hleft⟩ hnone
    · exact hsound.eq_of_detail_mem_view hleft hright

theorem Sound.mergeable_view (hsound : Sound collection) {trees : List Tree}
    (hperm : trees.Perm
      [collection.treeBelow .sources none sink, collection.treeBelow .derived none origin]) :
    ∀ tree ∈ trees, tree.NonRepeating ∧ tree.OneDirection 0 := by
  intro tree htree
  rw [hperm.mem_iff, List.mem_pair] at htree
  rcases htree with rfl | rfl
  · exact ⟨hsound.nonRepeating_treeBelow, hsound.oneDirection_treeBelow 0⟩
  · exact ⟨hsound.nonRepeating_treeBelow, hsound.oneDirection_treeBelow 0⟩

/-- Two views can be merged in either order, unless one relation has detail in both. -/
theorem Sound.views_succeed_iff (hsound : Sound collection) {trees : List Tree}
    (hperm : trees.Perm
      [collection.treeBelow .sources none sink, collection.treeBelow .derived none origin]) :
    (∃ merged, empty.afterMerging (trees.forM (mergeTree · 0)) = .ok merged) ↔
      ¬ DetailedTwice collection.edges sink origin := by
  rw [forM_mergeTree_succeeds_iff (hsound.mergeable_view hperm), statedBy_pair hperm,
    hsound.consistent_views_iff]

end Views

/-- A view towards the sources of one dataset and a view towards what was derived from
another can be merged into an empty collection, in either order, exactly if no relation has
detail in both.  What comes out holds the relations and homes that the views show, and all
of these are in the collection the views were taken from. -/
theorem Built.extractTree_views (hbuilt : Built collection) (sink origin : DatasetId) :
    ∃ sources derived, collection.extractTree sink .sources = .ok sources ∧
      collection.extractTree origin .derived = .ok derived ∧
      ∀ trees : List Tree, trees.Perm [sources, derived] →
        ((∃ merged, Collection.empty.afterMerging (trees.forM (mergeTree · 0)) = .ok merged) ↔
          ¬ DetailedTwice collection.edges sink origin) ∧
        ∀ merged, Collection.empty.afterMerging (trees.forM (mergeTree · 0)) = .ok merged →
          (∀ relation, relation ∈ merged.relations ↔
            sources.Shows relation ∨ derived.Shows relation) ∧
          (∀ id home, merged.home id = some home ↔
            sources.GivesHome id home ∨ derived.GivesHome id home) ∧
          (∀ relation ∈ merged.relations, relation ∈ collection.relations) ∧
          ∀ id home, merged.home id = some home → collection.home id = some home := by
  have hsound := hbuilt.sound
  refine ⟨_, _, hsound.extractTree_eq sink, hsound.extractTree_eq origin, ?_⟩
  intro trees hperm
  refine ⟨hsound.views_succeed_iff hperm, ?_⟩
  intro merged hmerged
  have hfacts : merged.facts = (collection.treeBelow .sources none sink).facts 0 ∪
      (collection.treeBelow .derived none origin).facts 0 := by
    rw [facts_of_forM_mergeTree (hsound.mergeable_view hperm) hmerged, statedBy_pair hperm]
  have hbacks := (hsound.backs_treeBelow .sources none sink).union
    (hsound.backs_treeBelow .derived none origin)
  rw [← hfacts] at hbacks
  refine ⟨?_, ?_, hbacks.relations, hbacks.homes⟩
  · intro relation
    rw [← relation_mem_facts, hfacts, Set.mem_union,
      hsound.relation_mem_facts_treeBelow_iff_shows, hsound.relation_mem_facts_treeBelow_iff_shows]
  · intro id home
    rw [← home_mem_facts, hfacts, Set.mem_union, Tree.home_mem_facts_iff, Tree.home_mem_facts_iff]

/-- The views from the two ends of a short chain have all relations in common, and none of
them has detail in both. -/
theorem extractTree_views_of_chain :
    ∃ collection sources derived merged, Built collection ∧
      collection.relations =
        [⟨"nbar", .numbered 1, .numbered 2⟩, ⟨"bias", .numbered 2, .numbered 3⟩] ∧
      collection.extractTree (.numbered 3) .sources = .ok sources ∧
      collection.extractTree (.numbered 1) .derived = .ok derived ∧
      empty.afterMerging ([derived, sources].forM (mergeTree · 0)) = .ok merged ∧
      ∀ relation, relation ∈ merged.relations ↔
        sources.Shows relation ∨ derived.Shows relation := by
  obtain ⟨collection, hbuilt, hrelations⟩ := @exists_built_of_ascending
    [⟨"nbar", .numbered 1, .numbered 2⟩, ⟨"bias", .numbered 2, .numbered 3⟩]
    (by decide) (by decide)
  have hshort : ¬ DetailedTwice collection.edges (.numbered 3) (.numbered 1) := by
    have hends : DatasetId.numbered 1 ≠ .numbered 2 ∧ DatasetId.numbered 1 ≠ .numbered 3 ∧
        DatasetId.numbered 2 ≠ .numbered 3 := by decide
    rw [edges, hrelations]
    rintro ⟨source, target, hedge, _, _, ⟨before, hbefore⟩, after, hafter⟩
    simp only [mem_edgesOf, List.mem_cons, List.not_mem_nil, or_false, exists_eq_or_imp,
      exists_eq_left, Relation.edge, Edge.mk.injEq] at hedge hbefore hafter
    grind
  obtain ⟨sources, derived, hsources, hderived, hviews⟩ :=
    hbuilt.extractTree_views (.numbered 3) (.numbered 1)
  obtain ⟨hsucceeds, hmerged⟩ := hviews [derived, sources] (.swap sources derived [])
  obtain ⟨merged, hresult⟩ := hsucceeds.2 hshort
  exact ⟨collection, sources, derived, merged, hbuilt, hrelations, hsources, hderived, hresult,
    (hmerged merged hresult).1⟩

/-- In a longer chain the relation between two inner datasets goes on at either end, so the
views from there contradict each other, whichever comes first. -/
theorem extractTree_views_of_inner_datasets :
    ∃ collection sources derived, Built collection ∧
      collection.relations = [⟨"nbar", .numbered 1, .numbered 2⟩,
        ⟨"nbar", .numbered 2, .numbered 3⟩, ⟨"nbar", .numbered 3, .numbered 4⟩] ∧
      collection.extractTree (.numbered 3) .sources = .ok sources ∧
      collection.extractTree (.numbered 2) .derived = .ok derived ∧
      (¬ ∃ merged, empty.afterMerging ([sources, derived].forM (mergeTree · 0)) = .ok merged) ∧
      ¬ ∃ merged, empty.afterMerging ([derived, sources].forM (mergeTree · 0)) = .ok merged := by
  obtain ⟨collection, hbuilt, hrelations⟩ := @exists_built_of_ascending
    [⟨"nbar", .numbered 1, .numbered 2⟩, ⟨"nbar", .numbered 2, .numbered 3⟩,
      ⟨"nbar", .numbered 3, .numbered 4⟩] (by decide) (by decide)
  have hsound := hbuilt.sound
  have htwice : DetailedTwice collection.edges (.numbered 3) (.numbered 2) := by
    rw [edges, hrelations]
    refine ⟨.numbered 2, .numbered 3, ?_, .refl, .refl, ⟨.numbered 1, ?_⟩, .numbered 4, ?_⟩
    · exact ⟨⟨"nbar", .numbered 2, .numbered 3⟩, by simp, rfl⟩
    · exact ⟨⟨"nbar", .numbered 1, .numbered 2⟩, by simp, rfl⟩
    · exact ⟨⟨"nbar", .numbered 3, .numbered 4⟩, by simp, rfl⟩
  refine ⟨collection, _, _, hbuilt, hrelations, hsound.extractTree_eq _,
    hsound.extractTree_eq _, ?_, ?_⟩
  · exact fun hmerged => (hsound.views_succeed_iff (.refl _)).1 hmerged htwice
  · exact fun hmerged => (hsound.views_succeed_iff (.swap _ _ [])).1 hmerged htwice

end Collection

end DatasetLineage
