import DatasetLineage.Proofs.Collection.MergedTree
import DatasetLineage.Proofs.Collection.Unfolding

/-!
# Rebuilding a collection from a tree

The whole tree of a dataset repeats an edge once for every path that leads to it, and
each time with the same subtree, so the tree can be merged into an empty collection.  The
collection that comes out holds the reachable part of the lineage and nothing else.  It
does not keep the order of the relations, but the order of the children in every group:
the neighbours of a dataset come in the order in which the tree shows them.  So the same
tree can be extracted again.
-/

namespace DatasetLineage

theorem allows_ofBound {bound depth : Nat} :
    (Levels.ofBound bound).Allows (depth + 1) ↔ Within bound depth := by
  rw [Levels.Allows, Levels.ofBound, Within]
  by_cases hzero : bound = 0
  · simp [hzero]
  · rw [if_neg hzero, or_iff_right hzero]
    constructor
    · intro hallows
      exact hallows bound rfl
    · intro hless count hcount
      cases hcount
      exact hless

theorem within_unbounded {depth : Nat} : Within 0 depth := .inl rfl

theorem touched_unbounded {depth : Nat} : Touched 0 depth := .inl rfl

/-- Without a bound a tree states everything that it states down to one. -/
theorem Tree.facts_subset_unbounded {tree : Tree} (bound : Nat) :
    tree.facts bound ⊆ tree.facts 0 := by
  intro fact hstates
  cases hstates with
  | home hnode _ hhome => exact .home hnode within_unbounded hhome
  | known hnode _ => exact .known hnode touched_unbounded
  | relation hnode _ hlink => exact .relation hnode within_unbounded hlink
  | detail hnode _ hlink hdetail => exact .detail hnode within_unbounded hlink hdetail

namespace Collection

variable {collection : Collection} {direction : Direction} {root : DatasetId}

/-! ## What an extracted tree states -/

section States

theorem Sound.oneDirection_treeBelow (hsound : Sound collection) {levels : Levels}
    (bound : Nat) : (collection.treeBelow direction levels root).OneDirection bound := by
  intro depth node hnode _
  obtain ⟨htree, _⟩ := hsound.nodeAt_treeBelow hnode
  rw [htree, hsound.direction_treeBelow, hsound.direction_treeBelow]

theorem Sound.home_mem_facts_treeBelow (hsound : Sound collection) {id : DatasetId}
    {home : String} :
    .home id home ∈ (collection.treeBelow direction none root).facts 0 ↔
      collection.home id = some home ∧ Reaches collection.edges direction root id := by
  constructor
  · intro hstates
    cases hstates with
    | @home depth node home hnode _ hhome =>
        obtain ⟨htree, hpath⟩ := hsound.nodeAt_treeBelow hnode
        rw [htree, hsound.home_treeBelow] at hhome
        exact ⟨hhome, hpath⟩
  · intro ⟨hhome, hpath⟩
    obtain ⟨depth, hnode⟩ := hsound.exists_nodeAt_treeBelow hpath
    rw [← hsound.home_treeBelow] at hhome
    have hstates := Tree.States.home hnode within_unbounded hhome
    rwa [hsound.id_treeBelow] at hstates

theorem Sound.known_mem_facts_treeBelow (hsound : Sound collection) {id : DatasetId} :
    .known id ∈ (collection.treeBelow direction none root).facts 0 ↔
      Reaches collection.edges direction root id := by
  constructor
  · intro hstates
    cases hstates with
    | known hnode _ => exact (hsound.nodeAt_treeBelow hnode).2
  · intro hpath
    obtain ⟨depth, hnode⟩ := hsound.exists_nodeAt_treeBelow hpath
    have hstates := Tree.States.known hnode touched_unbounded
    rwa [hsound.id_treeBelow] at hstates

/-- The children of a node of an extracted tree. -/
theorem Sound.link_of_nodeAt (hsound : Sound collection) {depth : Nat} {node : Tree}
    (hnode : (collection.treeBelow direction none root).NodeAt depth node)
    {link : String × Tree} (hlink : link ∈ node.children.links) :
    ∃ next ∈ collection.neighbours direction node.id,
      (next.classifier, collection.treeBelow direction none next.id) = link := by
  obtain ⟨htree, _⟩ := hsound.nodeAt_treeBelow hnode
  rw [htree] at hlink
  exact (hsound.mem_links_treeBelow.1 hlink).2

/-- Down to a bound, the whole tree of a dataset states the relations in reach. -/
theorem Sound.relation_mem_facts_treeBelow_iff (hsound : Sound collection) {bound : Nat}
    {relation : Relation} :
    .relation relation ∈ (collection.treeBelow direction none root).facts bound ↔
      relation ∈ collection.relations ∧
        relation.edge ∈ edgesWithin collection.edges direction (.ofBound bound) root := by
  constructor
  · intro hstates
    cases hstates with
    | @relation depth node link hnode hdepth hlink =>
        obtain ⟨_, target, hpath, hnode'⟩ := hsound.nodeAt_treeBelow_iff.1 hnode
        obtain ⟨next, hnext, rfl⟩ := hsound.link_of_nodeAt hnode hlink
        have hid : node.id = target := by rw [hnode', hsound.id_treeBelow]
        rw [hid] at hnext ⊢
        rw [hsound.id_treeBelow, hsound.direction_treeBelow]
        refine ⟨hsound.mem_neighbours.1 hnext, mem_edgesWithin.2 ⟨?_, depth, ?_, hpath⟩⟩
        · exact hsound.leads_iff.2 ⟨next, hnext, rfl⟩
        · exact allows_ofBound.2 hdepth
  · intro ⟨hrelation, hwithin⟩
    obtain ⟨parent, child, hedge⟩ := direction.exists_edge relation.edge
    rw [← hedge, mem_edgesWithin] at hwithin
    obtain ⟨_, depth, hallows, hpath⟩ := hwithin
    have hnode := hsound.nodeAt_treeBelow_iff.2 ⟨Levels.allows_none, parent, hpath, rfl⟩
    have hsame : relation = (direction.edge parent child).relation relation.classifier := by
      rw [hedge, Relation.edge_relation]
    have hnext : ⟨child, relation.classifier⟩ ∈ collection.neighbours direction parent := by
      rw [hsound.mem_neighbours, ← hsame]
      exact hrelation
    have hlink := hsound.mem_links_treeBelow.2
      ⟨Option.some_ne_none 0 |>.symm, ⟨child, relation.classifier⟩, hnext, rfl⟩
    have hstates := Tree.States.relation hnode (allows_ofBound.1 hallows) hlink
    rw [hsound.id_treeBelow, hsound.direction_treeBelow] at hstates
    change Tree.States _ _ (.relation ((direction.edge parent
      (collection.treeBelow direction none child).id).relation relation.classifier)) at hstates
    rwa [hsound.id_treeBelow, ← hsame] at hstates

theorem Sound.relation_mem_facts_treeBelow (hsound : Sound collection)
    {relation : Relation} :
    .relation relation ∈ (collection.treeBelow direction none root).facts 0 ↔
      relation ∈ collection.relations ∧ ∃ parent child,
        relation.edge = direction.edge parent child ∧
          Reaches collection.edges direction root parent := by
  rw [hsound.relation_mem_facts_treeBelow_iff]
  apply and_congr_right
  intro hrelation
  constructor
  · rintro ⟨depth, parent, child, _, hpath, _, hedge⟩
    exact ⟨parent, child, hedge.symm, hpath.reaches⟩
  · intro ⟨parent, child, hedge, hpath⟩
    obtain ⟨depth, hpath⟩ := exists_reachesIn hpath
    have hstep : Leads collection.edges direction parent child := by
      rw [Leads, ← hedge]
      exact Relation.edge_mem_edgesOf hrelation
    exact ⟨depth, parent, child, Levels.allows_none, hpath, hstep, hedge.symm⟩

/-- The detailed subtree of an edge depends on the edge alone. -/
theorem Sound.detail_mem_facts_treeBelow (hsound : Sound collection) {edge : Edge}
    {tree : Tree}
    (hmem : .detail edge tree ∈ (collection.treeBelow direction none root).facts 0) :
    ∃ parent child, edge = direction.edge parent child ∧
      tree = collection.treeBelow direction none child := by
  cases hmem with
  | @detail depth node link hnode _ hlink _ =>
      obtain ⟨next, hnext, rfl⟩ := hsound.link_of_nodeAt hnode hlink
      rw [hsound.id_treeBelow, hsound.direction_treeBelow]
      exact ⟨node.id, next.id, rfl, rfl⟩

theorem Sound.consistent_treeBelow (hsound : Sound collection) :
    Consistent ((collection.treeBelow direction none root).facts 0) where
  homes := by
    intro id left right hleft hright
    rw [hsound.home_mem_facts_treeBelow] at hleft hright
    exact Option.some.inj (hleft.1.symm.trans hright.1)
  classifiers := by
    intro left right hleft hright hedge
    rw [hsound.relation_mem_facts_treeBelow] at hleft hright
    exact hsound.consistent.classifiers left right hleft.1 hright.1 hedge
  acyclic := by
    apply hsound.acyclic.mono
    intro edge ⟨stated, hstated, hedge⟩
    exact ⟨stated, (hsound.relation_mem_facts_treeBelow.1 hstated).1, hedge⟩
  details := by
    intro edge left right hleft hright
    obtain ⟨parent, child, hedge, rfl⟩ := hsound.detail_mem_facts_treeBelow hleft
    obtain ⟨parent', child', hedge', rfl⟩ := hsound.detail_mem_facts_treeBelow hright
    rw [(Direction.edge_injective (hedge.symm.trans hedge')).2]

end States

/-! ## The rebuilt collection -/

/-- Down to any bound, the whole tree of a dataset can be merged into an empty collection,
which then holds what the tree states. -/
theorem Sound.rebuild (hsound : Sound collection) (direction : Direction)
    (root : DatasetId) (bound : Nat) :
    ∃ rebuilt, mergeTree (collection.treeBelow direction none root) bound empty =
        .ok () rebuilt ∧ Sound rebuilt ∧
      rebuilt.facts = (collection.treeBelow direction none root).facts bound := by
  have hsucceeds : ∃ rebuilt, mergeTree (collection.treeBelow direction none root) bound empty =
      .ok () rebuilt := by
    rw [mergeTree_eq, sound_empty.mergeTreeWith_succeeds_iff LeafCheck.search_passes,
      facts_empty, Set.empty_union]
    exact ⟨hsound.nonRepeating_treeBelow, hsound.oneDirection_treeBelow bound,
      hsound.consistent_treeBelow.mono (Tree.facts_subset_unbounded bound)⟩
  obtain ⟨rebuilt, hrebuilt⟩ := hsucceeds
  obtain ⟨hrebuiltSound, hfacts⟩ := sound_empty.facts_mergeTree hrebuilt
  rw [facts_empty, Set.empty_union] at hfacts
  exact ⟨rebuilt, hrebuilt, hrebuiltSound, hfacts⟩

end Collection

/-! ## The order of neighbours -/

/-- Some values one after the other, and perhaps some of them again, or nothing. -/
def Repeats {α : Type} (values more : List α) : Prop :=
  more = [] ∨ ∃ rest, rest ⊆ values ∧ more = values ++ rest

theorem Repeats.subset {α : Type} {values more : List α} (hrepeats : Repeats values more) :
    more ⊆ values := by
  rcases hrepeats with rfl | ⟨rest, hrest, rfl⟩
  · simp
  · simp [hrest]

theorem Repeats.append {α : Type} {values left right : List α} (hleft : Repeats values left)
    (hright : Repeats values right) : Repeats values (left ++ right) := by
  rcases hleft with rfl | ⟨rest, hrest, rfl⟩
  · exact hright
  · refine .inr ⟨rest ++ right, ?_, List.append_assoc ..⟩
    simp [hrest, hright.subset]

theorem Repeats.flatMap {α β : Type} {values : List α} {parts : List β} {part : β → List α}
    (hparts : ∀ value ∈ parts, Repeats values (part value)) :
    Repeats values (parts.flatMap part) := by
  induction parts with
  | nil => exact .inl rfl
  | cons value rest ih =>
      rw [List.flatMap_cons]
      apply (hparts value List.mem_cons_self).append
      exact ih fun other hother => hparts other (List.mem_cons_of_mem _ hother)

theorem Repeats.eraseDups_eq {α : Type} [BEq α] [LawfulBEq α] {values more : List α}
    (hrepeats : Repeats values more) (hnodup : values.Nodup) (hnonempty : more ≠ []) :
    more.eraseDups = values := by
  rcases hrepeats with rfl | ⟨rest, hrest, rfl⟩
  · exact absurd rfl hnonempty
  · rw [eraseDups_append_of_subset hrest, eraseDups_of_nodup hnodup]

def Neighbour.ofLink (link : String × Tree) : Neighbour :=
  ⟨link.2.id, link.1⟩

def Tree.relations (tree : Tree) : List Relation :=
  Entry.relations (tree.entries none)

theorem Tree.relations_eq (tree : Tree) :
    tree.relations = tree.children.links.flatMap fun link =>
      (tree.direction.edge tree.id link.2.id).relation link.1 :: link.2.relations :=
  tree.relations_entries none

theorem Tree.relation_mem_facts {tree : Tree} (hdirection : tree.OneDirection 0)
    {relation : Relation} (hmem : relation ∈ tree.relations) :
    .relation relation ∈ tree.facts 0 := by
  rw [← contents_entries hdirection]
  obtain ⟨fact, hfact, hsome⟩ := List.mem_filterMap.1 hmem
  cases fact <;> cases hsome
  exact ⟨.relation relation, hfact, .inl rfl⟩

theorem Relation.neighbour?_relation (direction : Direction) (parent target : DatasetId)
    (link : String × Tree) :
    ((direction.edge parent link.2.id).relation link.1).neighbour? direction target =
      if parent = target then some (Neighbour.ofLink link) else none := by
  cases direction <;> rfl

namespace Collection

variable {collection : Collection} {direction : Direction}

/-- The neighbours of a dataset in the order in which its node in a tree shows them. -/
def shown (collection : Collection) (direction : Direction) (id : DatasetId) :
    List Neighbour :=
  (collection.treeBelow direction none id).children.links.map Neighbour.ofLink

theorem Sound.shown_perm (hsound : Sound collection) (id : DatasetId) :
    (collection.shown direction id).Perm (collection.neighbours direction id) := by
  have hlinks : (collection.treeBelow direction none id).children.links.Perm
      (collection.linksBelow direction (collection.treeBelow direction none) id) := by
    rw [hsound.links_treeBelow (Option.some_ne_none 0).symm]
    exact ungrouped_grouped _
  have hneighbours : (collection.linksBelow direction (collection.treeBelow direction none)
      id).map Neighbour.ofLink = collection.neighbours direction id := by
    rw [linksBelow, List.map_map]
    apply List.map_id''
    intro next
    simp [Neighbour.ofLink, hsound.id_treeBelow]
  rw [← hneighbours]
  exact hlinks.map _

/-- Where a dataset cannot be reached, a tree states no neighbours of it. -/
theorem Sound.neighbours_of_unreachable (hsound : Sound collection) {id target : DatasetId}
    (hunreachable : ¬ Reaches collection.edges direction id target) :
    (collection.treeBelow direction none id).relations.filterMap
      (Relation.neighbour? direction target) = [] := by
  rw [List.eq_nil_iff_forall_not_mem]
  intro neighbour hneighbour
  obtain ⟨relation, hrelation, hsome⟩ := List.mem_filterMap.1 hneighbour
  have hstated := Tree.relation_mem_facts (hsound.oneDirection_treeBelow 0) hrelation
  obtain ⟨_, parent, child, hedge, hpath⟩ := hsound.relation_mem_facts_treeBelow.1 hstated
  rw [Relation.neighbour?_eq_some.1 hsome, Edge.relation_edge] at hedge
  apply hunreachable
  rw [(Direction.edge_injective hedge).1]
  exact hpath

/-- A tree states the neighbours of a dataset once for every path that leads to it, and
each time in the same order. -/
theorem Sound.repeats_shown (hsound : Sound collection) (direction : Direction)
    (id target : DatasetId) :
    Repeats (collection.shown direction target)
      ((collection.treeBelow direction none id).relations.filterMap
        (Relation.neighbour? direction target)) := by
  have hdescent := hsound.acyclic.wellFounded direction
  induction id using hdescent.induction with
  | _ id ih =>
      have hpart : ∀ link : String × Tree,
          ((direction.edge id link.2.id).relation link.1 :: link.2.relations).filterMap
              (Relation.neighbour? direction target) =
            (if id = target then [Neighbour.ofLink link] else []) ++
              link.2.relations.filterMap (Relation.neighbour? direction target) := by
        intro link
        by_cases heq : id = target <;>
          simp [Relation.neighbour?_relation, heq]
      rw [Tree.relations_eq, hsound.direction_treeBelow, hsound.id_treeBelow,
        List.filterMap_flatMap]
      simp only [hpart]
      by_cases heq : id = target
      · -- The dataset cannot be reached from its own children: it is shown once, here.
        subst heq
        have honce : ∀ link ∈ (collection.treeBelow direction none id).children.links,
            (if id = id then [Neighbour.ofLink link] else []) ++
                link.2.relations.filterMap (Relation.neighbour? direction id) =
              [Neighbour.ofLink link] := by
          intro link hlink
          obtain ⟨_, next, hnext, rfl⟩ := hsound.mem_links_treeBelow.1 hlink
          have hstep := hsound.leads_iff.2 ⟨next, hnext, rfl⟩
          have hunreachable : ¬ Reaches collection.edges direction next.id id := fun hback =>
            hsound.acyclic.not_below direction id (.head' hstep hback)
          have hnothing := hsound.neighbours_of_unreachable hunreachable
          rw [if_pos rfl]
          exact congrArg _ hnothing
        rw [List.flatMap_congr honce, ← List.map_eq_flatMap]
        exact .inr ⟨[], List.nil_subset _, (List.append_nil _).symm⟩
      · apply Repeats.flatMap
        intro link hlink
        obtain ⟨_, next, hnext, rfl⟩ := hsound.mem_links_treeBelow.1 hlink
        rw [if_neg heq, List.nil_append]
        exact ih next.id (hsound.leads_iff.2 ⟨next, hnext, rfl⟩)

/-! ## Extracting the same tree again -/

/-- In the rebuilt collection the neighbours of a reachable dataset come as its tree shows
them. -/
theorem Sound.neighbours_rebuilt (hsound : Sound collection) {root : DatasetId}
    {rebuilt : Collection}
    (hrebuilt : mergeTree (collection.treeBelow direction none root) 0 empty = .ok () rebuilt)
    (hfacts : rebuilt.facts = (collection.treeBelow direction none root).facts 0)
    {id : DatasetId} (hpath : Reaches collection.edges direction root id) :
    rebuilt.neighbours direction id = collection.shown direction id := by
  rw [mergeTree_eq] at hrebuilt
  obtain ⟨_, _, hentries⟩ :=
    (sound_empty.mergeTreeWith_eq_ok_iff LeafCheck.search_passes).1 hrebuilt
  have hrebuiltSound := (sound_empty.enteredAll hentries).sound
  have hnone : empty.neighbours direction id = [] := by
    cases direction <;> rfl
  have hneighbours : rebuilt.neighbours direction id =
      ((collection.treeBelow direction none root).relations.filterMap
        (Relation.neighbour? direction id)).eraseDups := by
    rw [sound_empty.neighbours_enterAll hentries, hnone, List.nil_append]
    rfl
  have hrepeats := hsound.repeats_shown direction root id
  have hnodup : (collection.shown direction id).Nodup :=
    (hsound.shown_perm id).nodup_iff.2 (hsound.nodup_neighbours direction id)
  by_cases hempty : (collection.treeBelow direction none root).relations.filterMap
      (Relation.neighbour? direction id) = []
  · have hleaf : ∀ next, next ∉ collection.shown direction id := by
      intro next hnext
      have hrelation := hsound.mem_neighbours.1 ((hsound.shown_perm id).mem_iff.1 hnext)
      have hkept : next ∈ rebuilt.neighbours direction id := by
        rw [hrebuiltSound.mem_neighbours, ← relation_mem_facts, hfacts,
          hsound.relation_mem_facts_treeBelow]
        exact ⟨hrelation, id, next.id, rfl, hpath⟩
      rw [hneighbours, hempty] at hkept
      exact List.not_mem_nil hkept
    rw [hneighbours, hempty, List.eq_nil_iff_forall_not_mem.2 hleaf]
    rfl
  · rw [hneighbours, hrepeats.eraseDups_eq hnodup hempty]

theorem Sound.treeBelow_rebuilt (hsound : Sound collection) {root : DatasetId}
    {rebuilt : Collection}
    (hrebuilt : mergeTree (collection.treeBelow direction none root) 0 empty = .ok () rebuilt)
    (hrebuiltSound : Sound rebuilt)
    (hfacts : rebuilt.facts = (collection.treeBelow direction none root).facts 0)
    (id : DatasetId) (hpath : Reaches collection.edges direction root id) :
    rebuilt.treeBelow direction none id = collection.treeBelow direction none id := by
  have hdescent := hsound.acyclic.wellFounded direction
  induction id using hdescent.induction with
  | _ id ih =>
      have hhome : rebuilt.home id = collection.home id := by
        apply Option.ext
        intro home
        rw [← home_mem_facts, hfacts, hsound.home_mem_facts_treeBelow]
        simp [hpath]
      have hlinks : rebuilt.linksBelow direction (rebuilt.treeBelow direction none) id =
          ungrouped (grouped (collection.linksBelow direction
            (collection.treeBelow direction none) id)) := by
        have hsame : ∀ link ∈ (collection.treeBelow direction none id).children.links,
            (link.1, rebuilt.treeBelow direction none link.2.id) = link := by
          intro link hlink
          obtain ⟨_, next, hnext, rfl⟩ := hsound.mem_links_treeBelow.1 hlink
          have hstep := hsound.leads_iff.2 ⟨next, hnext, rfl⟩
          have hchild := ih next.id hstep (hpath.tail hstep)
          simp only [hsound.id_treeBelow]
          exact congrArg _ hchild
        calc
          rebuilt.linksBelow direction (rebuilt.treeBelow direction none) id =
              (collection.treeBelow direction none id).children.links.map
                fun link => (link.1, rebuilt.treeBelow direction none link.2.id) := by
            rw [linksBelow, hsound.neighbours_rebuilt hrebuilt hfacts hpath, shown,
              List.map_map]
            rfl
          _ = (collection.treeBelow direction none id).children.links.map fun link => link :=
            List.map_congr_left hsame
          _ = (collection.treeBelow direction none id).children.links := List.map_id' _
          _ = _ := hsound.links_treeBelow (Option.some_ne_none 0).symm
      have hgrouped := (Grouped.of_links (collection.linksBelow direction
        (collection.treeBelow direction none) id)).grouped_ungrouped
      rw [hrebuiltSound.treeBelow_eq, hsound.treeBelow_eq, unfold, unfold, hhome]
      simp only [Levels.next, Option.map_none, hlinks, hgrouped]
      simp

/-- The whole tree of a dataset can be extracted and rebuilt, whatever the dataset and the
direction.  What comes out is the part of the collection that can be reached from the
dataset, its homes among them, and extracting the dataset from it once more gives the
same tree, the order of siblings included. -/
theorem Built.extractTree_round_trip (hbuilt : Built collection) (root : DatasetId)
    (direction : Direction) :
    ∃ tree rebuilt, collection.extractTree root direction = .ok tree ∧
      Collection.ofTree tree 0 = .ok rebuilt ∧
      (∀ relation, relation ∈ rebuilt.relations ↔
        relation ∈ collection.relations ∧ ∃ parent child,
          relation.edge = direction.edge parent child ∧
            Reaches collection.edges direction root parent) ∧
      (∀ id home, rebuilt.home id = some home ↔
        collection.home id = some home ∧ Reaches collection.edges direction root id) ∧
      (∀ id, id ∈ rebuilt.datasetIds ↔ Reaches collection.edges direction root id) ∧
      rebuilt.extractTree root direction = .ok tree := by
  have hsound := hbuilt.sound
  obtain ⟨rebuilt, hrebuilt, hrebuiltSound, hfacts⟩ := hsound.rebuild direction root 0
  refine ⟨collection.treeBelow direction none root, rebuilt, hsound.extractTree_eq root,
    afterMerging_eq_ok.2 hrebuilt, ?_, ?_, ?_, ?_⟩
  · intro relation
    rw [← relation_mem_facts, hfacts, hsound.relation_mem_facts_treeBelow]
  · intro id home
    rw [← home_mem_facts, hfacts, hsound.home_mem_facts_treeBelow]
  · intro id
    rw [datasetIds, ← OrderedMap.contains_iff_mem_keys, ← hsound.known_mem_facts_treeBelow,
      ← hfacts]
    rfl
  · rw [hrebuiltSound.extractTree_eq,
      hsound.treeBelow_rebuilt hrebuilt hrebuiltSound hfacts root .refl]

/-- Two siblings whose groups come in another order than their relations. -/
theorem extractTree_round_trip_of_siblings :
    ∃ collection tree rebuilt, Built collection ∧
      collection.relations =
        [⟨"nbar", .numbered 1, .numbered 2⟩, ⟨"bias", .numbered 1, .numbered 3⟩] ∧
      collection.extractTree (.numbered 1) .derived = .ok tree ∧
      ofTree tree 0 = .ok rebuilt ∧ .numbered 3 ∈ rebuilt.datasetIds ∧
      rebuilt.extractTree (.numbered 1) .derived = .ok tree := by
  have hfirst : Built (empty.insertRelation ⟨"nbar", .numbered 1, .numbered 2⟩) :=
    .change (.relation ⟨"nbar", .numbered 1, .numbered 2⟩) .empty rfl
  have hbuilt := Built.change (.relation ⟨"bias", .numbered 1, .numbered 3⟩) hfirst rfl
  obtain ⟨tree, rebuilt, htree, hrebuilt, _, _, hids, hagain⟩ :=
    hbuilt.extractTree_round_trip (.numbered 1) .derived
  refine ⟨_, tree, rebuilt, hbuilt, rfl, htree, hrebuilt, ?_, hagain⟩
  apply (hids _).2
  apply Relation.ReflTransGen.single
  exact ⟨⟨"bias", .numbered 1, .numbered 3⟩, List.mem_cons_of_mem _ List.mem_cons_self, rfl⟩

end Collection

end DatasetLineage
