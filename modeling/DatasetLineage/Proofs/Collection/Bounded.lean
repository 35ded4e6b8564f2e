import DatasetLineage.Proofs.Collection.RoundTrip
import DatasetLineage.Proofs.Tree.Siblings

/-!
# Lineage in reach of a dataset

A tree that is cut off after some levels shows the relations in reach of its root, and a
collection rebuilt from a whole tree down to a bound holds the same relations.  What it
shows depends on the datasets in reach alone: two collections that agree about these have
trees that are alike, also at the cut, where a node without neighbours is told from one
that was not explored.
-/

namespace DatasetLineage

/-- A relation stands in a tree between a node and one of its children. -/
def Tree.Shows (tree : Tree) (relation : Relation) : Prop :=
  ∃ depth node link, tree.NodeAt depth node ∧ link ∈ node.children.links ∧
    (node.direction.edge node.id link.2.id).relation link.1 = relation

namespace Collection

section Reach

variable {collection : Collection} {direction : Direction} {levels : Levels} {root : DatasetId}

/-- A tree shows the relations in reach of its root. -/
theorem Sound.shows_treeBelow_iff (hsound : Sound collection) {relation : Relation} :
    (collection.treeBelow direction levels root).Shows relation ↔
      relation ∈ collection.relations ∧
        relation.edge ∈ edgesWithin collection.edges direction levels root := by
  constructor
  · rintro ⟨depth, node, link, hnode, hlink, rfl⟩
    obtain ⟨hallows, parent, hpath, rfl⟩ := hsound.nodeAt_treeBelow_iff.1 hnode
    obtain ⟨hcut, next, hnext, rfl⟩ := hsound.mem_links_treeBelow.1 hlink
    simp only [hsound.id_treeBelow, hsound.direction_treeBelow]
    refine ⟨hsound.mem_neighbours.1 hnext, mem_edgesWithin.2 ⟨?_, depth, ?_, hpath⟩⟩
    · exact hsound.leads_iff.2 ⟨next, hnext, rfl⟩
    · exact Levels.allows_succ_iff_not_cut.2 ⟨hallows, hcut⟩
  · intro ⟨hrelation, hwithin⟩
    obtain ⟨parent, child, hedge⟩ := direction.exists_edge relation.edge
    rw [← hedge, mem_edgesWithin] at hwithin
    obtain ⟨_, depth, hallows, hpath⟩ := hwithin
    obtain ⟨hparent, hcut⟩ := Levels.allows_succ_iff_not_cut.1 hallows
    have hnode := hsound.nodeAt_treeBelow_iff.2 ⟨hparent, parent, hpath, rfl⟩
    have hsame : (direction.edge parent child).relation relation.classifier = relation := by
      rw [hedge, Relation.edge_relation]
    have hnext : ⟨child, relation.classifier⟩ ∈ collection.neighbours direction parent := by
      rw [hsound.mem_neighbours, hsame]
      exact hrelation
    refine ⟨depth, _, _, hnode, hsound.mem_links_treeBelow.2 ⟨hcut, _, hnext, rfl⟩, ?_⟩
    simp only [hsound.id_treeBelow, hsound.direction_treeBelow]
    exact hsame

/-- Down to a bound, a collection can be rebuilt from the whole tree of a dataset, and then
holds the relations in reach. -/
theorem Sound.ofTree_treeBelow (hsound : Sound collection) (direction : Direction)
    (root : DatasetId) (bound : Nat) :
    ∃ rebuilt, ofTree (collection.treeBelow direction none root) bound = .ok rebuilt ∧
      (rebuilt.relations.map Relation.edge).Nodup ∧
      ∀ relation, relation ∈ rebuilt.relations ↔ relation ∈ collection.relations ∧
        relation.edge ∈ edgesWithin collection.edges direction (.ofBound bound) root := by
  obtain ⟨rebuilt, hrebuilt, hrebuiltSound, hfacts⟩ := hsound.rebuild direction root bound
  refine ⟨rebuilt, afterMerging_eq_ok.2 hrebuilt, hrebuiltSound.distinct, ?_⟩
  intro relation
  rw [← relation_mem_facts, hfacts, hsound.relation_mem_facts_treeBelow_iff]

end Reach

/-! ## Collections that agree in reach of a dataset -/

/-- Two collections have the same home for a dataset, and the same neighbours of it in a
direction, perhaps in another order. -/
structure AgreeAt (left right : Collection) (direction : Direction) (id : DatasetId) :
    Prop where
  home : left.home id = right.home id
  neighbours : (left.neighbours direction id).Perm (right.neighbours direction id)

/-- Two collections agree about every dataset in reach of a root. -/
def AgreeWithin (left right : Collection) (direction : Direction) (levels : Levels)
    (root : DatasetId) : Prop :=
  ∀ depth id, levels.Allows depth → ReachesIn right.edges direction depth root id →
    left.AgreeAt right direction id

variable {left right : Collection} {direction : Direction} {levels : Levels} {root : DatasetId}

theorem AgreeWithin.here (hagree : left.AgreeWithin right direction levels root) :
    left.AgreeAt right direction root :=
  hagree 0 root Levels.allows_zero (.refl root)

theorem AgreeWithin.next (hagree : left.AgreeWithin right direction levels root)
    (hcut : levels ≠ some 0) {child : DatasetId} (hstep : Leads right.edges direction root child) :
    left.AgreeWithin right direction levels.next child :=
  fun depth id hallows hpath =>
    hagree (depth + 1) id (Levels.allows_succ.2 ⟨hcut, hallows⟩) (.head hstep hpath)

theorem AgreeWithin.sameWithin (hagree : left.AgreeWithin right direction levels root)
    (hleft : Lockstep left) (hright : Lockstep right) :
    SameWithin left.edges right.edges direction levels root := by
  intro depth parent hallows hpath child
  have hneighbours := (hagree depth parent hallows hpath).neighbours
  rw [hleft.leads_iff, hright.leads_iff]
  apply exists_congr
  intro next
  rw [hneighbours.mem_iff]

/-- Collections that agree in reach of a dataset have trees of it that are alike. -/
theorem AgreeWithin.alike (hagree : left.AgreeWithin right direction levels root)
    (hleft : Sound left) (hright : Sound right) :
    (left.treeBelow direction levels root).Alike (right.treeBelow direction levels root) := by
  have hdescent := hright.acyclic.wellFounded direction
  induction root using hdescent.induction generalizing levels with
  | _ root ih =>
      obtain ⟨hhome, hneighbours⟩ := hagree.here
      have hcuts : levels = some 0 ∧ left.neighbours direction root ≠ [] ↔
          levels = some 0 ∧ right.neighbours direction root ≠ [] := by
        rw [ne_eq, ne_eq, ← List.length_eq_zero_iff, ← List.length_eq_zero_iff,
          hneighbours.length_eq]
      rw [hleft.treeBelow_eq, hright.treeBelow_eq, unfold, unfold, hhome]
      by_cases hcut : levels = some 0 ∧ right.neighbours direction root ≠ []
      · rw [if_pos hcut, if_pos (hcuts.2 hcut)]
        exact .unknown direction root (right.home root)
      · rw [if_neg hcut, if_neg fun hleft => hcut (hcuts.1 hleft)]
        have hlinks := hneighbours.map fun next => (next.classifier, next.id)
        have halike : ∀ link ∈ (left.neighbours direction root).map
            (fun next => (next.classifier, next.id)),
              (left.treeBelow direction levels.next link.2).Alike
                (right.treeBelow direction levels.next link.2) := by
          intro link hlink
          obtain ⟨next, hnext, rfl⟩ := List.mem_map.1 hlink
          have hright' := hneighbours.mem_iff.1 hnext
          have hstep := hright.leads_iff.2 ⟨next, hright', rfl⟩
          have hlevels : levels ≠ some 0 :=
            fun heq => hcut ⟨heq, List.ne_nil_of_mem hright'⟩
          exact ih next.id hstep (hagree.next hlevels hstep)
        have hnodes := Tree.alike_of_links direction root (right.home root) hlinks halike
        rw [List.map_map, List.map_map] at hnodes
        exact hnodes

end Collection

end DatasetLineage
