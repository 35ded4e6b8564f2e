import DatasetLineage.Proofs.Collection.Arrival
import DatasetLineage.Proofs.Collection.Bounded

/-!
# Detail in the trees of one collection

Trees that are extracted from the same collection agree about homes and classifiers, and
their relations have no cycle, wherever they start and wherever they are cut off.  So all
that can keep them from being merged together is the rule of one detailed subtree for each
edge.  The subtree that a tree gives for an edge is rooted at the end further away from its
root, and it has detail unless the tree ends there.
-/

namespace DatasetLineage

def Tree.GivesHome (tree : Tree) (id : DatasetId) (home : String) : Prop :=
  ∃ depth node, tree.NodeAt depth node ∧ node.id = id ∧ node.home = some home

namespace Tree

variable {tree : Tree}

theorem home_mem_facts_iff {id : DatasetId} {home : String} :
    .home id home ∈ tree.facts 0 ↔ tree.GivesHome id home := by
  constructor
  · intro hstates
    cases hstates with
    | home hnode _ hhome => exact ⟨_, _, hnode, rfl, hhome⟩
  · rintro ⟨depth, node, hnode, rfl, hhome⟩
    exact .home hnode within_unbounded hhome

theorem relation_mem_facts_iff (hdirection : tree.OneDirection 0) {relation : Relation} :
    .relation relation ∈ tree.facts 0 ↔ tree.Shows relation := by
  constructor
  · intro hstates
    cases hstates with
    | relation hnode _ hlink =>
        rw [← hdirection _ _ hnode touched_unbounded]
        exact ⟨_, _, _, hnode, hlink, rfl⟩
  · rintro ⟨depth, node, link, hnode, hlink, rfl⟩
    rw [hdirection depth node hnode touched_unbounded]
    exact .relation hnode within_unbounded hlink

/-- A node without a child has no groups of children. -/
theorem hasDetail_of_mem_links {link : String × Tree} (hlink : link ∈ tree.children.links) :
    tree.children.hasDetail = true := by
  cases hchildren : tree.children with
  | populated groups => rfl
  | empty =>
      rw [hchildren] at hlink
      exact absurd hlink List.not_mem_nil
  | unknown =>
      rw [hchildren] at hlink
      exact absurd hlink List.not_mem_nil

end Tree

namespace Collection

variable {collection : Collection} {direction : Direction} {levels : Levels} {root : DatasetId}

/-! ## Facts that a collection bears out -/

/-- A collection has the homes and relations among some facts. -/
structure Backs (collection : Collection) (facts : Set Fact) : Prop where
  homes : ∀ id home, .home id home ∈ facts → collection.home id = some home
  relations : ∀ relation, .relation relation ∈ facts → relation ∈ collection.relations

theorem Backs.union {left right : Set Fact} (hleft : collection.Backs left)
    (hright : collection.Backs right) : collection.Backs (left ∪ right) where
  homes := fun id home hmem => hmem.elim (hleft.homes id home) (hright.homes id home)
  relations := fun relation hmem =>
    hmem.elim (hleft.relations relation) (hright.relations relation)

/-- Facts that a sound collection bears out can contradict each other in detail alone. -/
theorem Sound.consistent_iff_details (hsound : Sound collection) {facts : Set Fact}
    (hbacks : collection.Backs facts) :
    Consistent facts ↔ ∀ edge left right, .detail edge left ∈ facts →
      .detail edge right ∈ facts → left = right := by
  refine ⟨Consistent.details, fun hdetails => ⟨?_, ?_, ?_, hdetails⟩⟩
  · intro id left right hleft hright
    exact Option.some.inj ((hbacks.homes id left hleft).symm.trans (hbacks.homes id right hright))
  · intro left right hleft hright hedge
    rw [hsound.eq_of_edge_eq (hbacks.relations left hleft) (hbacks.relations right hright) hedge]
  · apply hsound.acyclic.mono
    intro edge ⟨stated, hstated, hedge⟩
    exact ⟨stated, hbacks.relations stated hstated, hedge⟩

theorem Sound.relation_mem_facts_treeBelow_iff_shows (hsound : Sound collection)
    {relation : Relation} :
    .relation relation ∈ (collection.treeBelow direction levels root).facts 0 ↔
      (collection.treeBelow direction levels root).Shows relation :=
  Tree.relation_mem_facts_iff (hsound.oneDirection_treeBelow 0)

theorem Sound.backs_treeBelow (hsound : Sound collection) (direction : Direction)
    (levels : Levels) (root : DatasetId) :
    collection.Backs ((collection.treeBelow direction levels root).facts 0) where
  homes := by
    intro id home hstates
    obtain ⟨depth, node, hnode, rfl, hhome⟩ := Tree.home_mem_facts_iff.1 hstates
    rwa [(hsound.nodeAt_treeBelow hnode).1, hsound.home_treeBelow] at hhome
  relations := by
    intro relation hstates
    rw [hsound.relation_mem_facts_treeBelow_iff_shows] at hstates
    exact (hsound.shows_treeBelow_iff.1 hstates).1

/-! ## The detailed subtrees of an extracted tree -/

/-- A node above the cut has detail if its dataset has neighbours. -/
theorem Sound.hasDetail_treeBelow (hsound : Sound collection) :
    (collection.treeBelow direction levels root).children.hasDetail = true ↔
      levels ≠ some 0 ∧ ∃ child, Leads collection.edges direction root child := by
  constructor
  · intro hdetail
    rw [hsound.treeBelow_eq, unfold] at hdetail
    by_cases hcut : levels = some 0 ∧ collection.neighbours direction root ≠ []
    · simp [hcut, Tree.children, Children.hasDetail] at hdetail
    · rw [if_neg hcut] at hdetail
      have hneighbours : collection.neighbours direction root ≠ [] := by
        intro hnone
        simp [linksBelow, hnone, grouped, Tree.children, Children.ofGroups,
          Children.hasDetail] at hdetail
      obtain ⟨next, hnext⟩ := List.exists_mem_of_ne_nil _ hneighbours
      exact ⟨fun hlevels => hcut ⟨hlevels, hneighbours⟩, next.id,
        hsound.leads_iff.2 ⟨next, hnext, rfl⟩⟩
  · rintro ⟨hlevels, child, hstep⟩
    obtain ⟨next, hnext, _⟩ := hsound.leads_iff.1 hstep
    exact Tree.hasDetail_of_mem_links (hsound.mem_links_treeBelow.2 ⟨hlevels, next, hnext, rfl⟩)

/-- The detailed subtree of an edge in reach is the tree of its far end, with the levels
that are left there. -/
theorem Sound.detail_mem_facts_treeBelow_iff (hsound : Sound collection) {edge : Edge}
    {tree : Tree} :
    .detail edge tree ∈ (collection.treeBelow direction levels root).facts 0 ↔
      ∃ depth parent child, levels.Allows (depth + 1) ∧
        ReachesIn collection.edges direction depth root parent ∧
          Leads collection.edges direction parent child ∧
            edge = direction.edge parent child ∧
              tree = collection.treeBelow direction (levels.map (· - (depth + 1))) child ∧
                tree.children.hasDetail = true := by
  constructor
  · intro hstates
    cases hstates with
    | @detail depth node link hnode _ hlink hdetail =>
        obtain ⟨hallows, parent, hpath, rfl⟩ := hsound.nodeAt_treeBelow_iff.1 hnode
        obtain ⟨hcut, next, hneighbour, rfl⟩ := hsound.mem_links_treeBelow.1 hlink
        rw [hsound.id_treeBelow, hsound.id_treeBelow, hsound.direction_treeBelow]
        refine ⟨depth, parent, next.id, Levels.allows_succ_iff_not_cut.2 ⟨hallows, hcut⟩, hpath,
          hsound.leads_iff.2 ⟨next, hneighbour, rfl⟩, rfl, ?_, hdetail⟩
        rw [Levels.next_left]
  · rintro ⟨depth, parent, child, hallows, hpath, hstep, rfl, rfl, hdetail⟩
    obtain ⟨hparent, hcut⟩ := Levels.allows_succ_iff_not_cut.1 hallows
    obtain ⟨next, hneighbour, rfl⟩ := hsound.leads_iff.1 hstep
    have hnode := hsound.nodeAt_treeBelow_iff.2 ⟨hparent, parent, hpath, rfl⟩
    have hlink := hsound.mem_links_treeBelow.2 ⟨hcut, next, hneighbour, rfl⟩
    rw [Levels.next_left] at hlink
    have hstates := Tree.States.detail hnode within_unbounded hlink hdetail
    rwa [hsound.id_treeBelow, hsound.id_treeBelow, hsound.direction_treeBelow] at hstates

end Collection

end DatasetLineage
