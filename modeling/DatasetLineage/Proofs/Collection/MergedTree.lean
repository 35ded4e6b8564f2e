import DatasetLineage.Proofs.Collection.Acceptance
import DatasetLineage.Proofs.Collection.Order
import DatasetLineage.Proofs.Tree.Preorder

/-!
# What the merge of a tree adds

The edges of a tree are merged in pre-order down to a bound, so the relations that are new come
behind those that were there, in the order in which the tree shows them first.  Homes are taken
from the nodes above the bound, and datasets are known from it as well.  Nothing that was
recorded is taken away or changed.
-/

namespace DatasetLineage

namespace Tree

variable {tree : Tree} {bound : Nat}

/-- The relations among the entries of a tree, link by link. -/
theorem relations_entries (levels : Levels) (tree : Tree) :
    Entry.relations (tree.entries levels) = tree.children.links.flatMap fun link =>
      (tree.direction.edge tree.id link.2.id).relation link.1 ::
        Entry.relations (if levels ≠ some 1 then link.2.entries levels.next else []) := by
  have hleaf : Entry.relations (if tree.children.hasDetail then []
      else [.leaf tree.direction.opposite tree.id]) = [] := by
    split <;> rfl
  rw [entries_eq, Entry.relations_append, Entry.relations_append, Entry.relations_flatMap,
    Entry.relations_ofNode, hleaf, List.nil_append, List.append_nil]
  congr 1
  funext link
  exact Entry.relations_ofLink _ _ _ _

/-- The edges of a tree in pre-order down to a bound, all of them if it is zero. -/
def occurrencesWithin (bound : Nat) (tree : Tree) : List Occurrence :=
  tree.occurrences.filter fun occurrence =>
    bound = 0 ∨ occurrence.position.length ≤ bound

/-- Along a step the edge itself is in reach, and those below are with one level less. -/
theorem filter_occurrencesAlong {direction : Direction} {step : Step × Tree}
    (hdirection : step.2.direction = direction) (bound : Nat) (parent : DatasetId) :
    ((occurrencesAlong direction parent step).filter fun occurrence =>
        bound = 0 ∨ occurrence.position.length ≤ bound).map Occurrence.relation =
      (direction.edge parent step.2.id).relation step.1.classifier ::
        if bound ≠ 1 then (step.2.occurrencesWithin (bound - 1)).map Occurrence.relation
        else [] := by
  have hfirst : bound = 0 ∨ 1 ≤ bound := Nat.eq_zero_or_pos bound
  have hbelow : ∀ occurrence ∈ step.2.occurrencesIn direction,
      (bound = 0 ∨ (occurrence.under step.1).position.length ≤ bound) ↔
        bound ≠ 1 ∧ (bound - 1 = 0 ∨ occurrence.position.length ≤ bound - 1) := by
    intro occurrence hmem
    obtain ⟨_, rest, hposition⟩ := exists_position_of_mem hmem
    rw [Occurrence.under, hposition, List.length_cons, List.length_cons]
    omega
  rw [occurrencesAlong, List.filter_cons_of_pos (by simpa using hfirst), List.map_cons,
    List.filter_map, List.map_map]
  congr 1
  by_cases hone : bound = 1
  · have hnone : (step.2.occurrencesIn direction).filter
        ((fun occurrence => bound = 0 ∨ occurrence.position.length ≤ bound) ∘
          Occurrence.under step.1) = [] := by
      rw [List.filter_eq_nil_iff]
      intro occurrence hmem
      rw [Function.comp_apply, decide_eq_true_eq, hbelow occurrence hmem]
      exact fun hreach => hreach.1 hone
    rw [hnone, if_neg (not_not.2 hone)]
    rfl
  · rw [if_pos hone, occurrencesWithin, occurrences, hdirection]
    congr 1
    apply List.filter_congr
    intro occurrence hmem
    rw [Function.comp_apply, decide_eq_decide, hbelow occurrence hmem]
    exact and_iff_right hone

/-- The relations of a tree are merged in pre-order. -/
theorem relations_entries_eq (hdirection : tree.OneDirection bound) :
    Entry.relations (tree.entries (.ofBound bound)) =
      (tree.occurrencesWithin bound).map Occurrence.relation := by
  induction tree using Tree.induction generalizing bound with
  | node direction id home children ih =>
      have hsteps : ∀ step ∈ children.steps,
          (direction.edge id step.2.id).relation step.1.classifier ::
              Entry.relations (if Levels.ofBound bound ≠ some 1 then
                step.2.entries (Levels.ofBound bound).next else []) =
            ((occurrencesAlong direction id step).filter fun occurrence =>
              bound = 0 ∨ occurrence.position.length ≤ bound).map Occurrence.relation := by
        intro step hstep
        have hlink := Children.mem_links_iff_step.2 ⟨step, hstep, rfl⟩
        obtain ⟨hchild, hbelow⟩ := oneDirection_iff.1 hdirection _ hlink
        have hsame : step.2.direction = direction := hchild
        rw [filter_occurrencesAlong hsame]
        by_cases hone : bound = 1
        · rw [if_neg (not_not.2 hone), if_neg fun hlevels => Levels.ofBound_ne_one.1 hlevels hone]
          rfl
        · rw [if_pos hone, if_pos (Levels.ofBound_ne_one.2 hone), Levels.next_ofBound hone,
            ih _ hlink (hbelow hone)]
      rw [relations_entries, occurrencesWithin, occurrences, occurrencesIn_eq,
        List.filter_flatMap, List.map_flatMap]
      change (children.links.flatMap _) = children.steps.flatMap _
      rw [Children.links_eq_map_steps, List.flatMap_map]
      exact List.flatMap_congr hsteps

end Tree

namespace Collection

variable {collection merged : Collection} {tree : Tree} {bound : Nat}

/-- Nothing that a collection records is taken away or changed in another one. -/
structure Extends (collection merged : Collection) : Prop where
  homes : ∀ id home, collection.home id = some home → merged.home id = some home
  relations : collection.relations <+: merged.relations
  classifiers : ∀ edge classifier, collection.classifier edge = some classifier →
    merged.classifier edge = some classifier
  neighbours : ∀ direction id,
    collection.neighbours direction id <+: merged.neighbours direction id
  known : ∀ id, collection.contains id = true → merged.contains id = true
  details : ∀ edge tree, collection.details.get? edge = some tree →
    merged.details.get? edge = some tree

theorem Sound.extends_of_enterAll (hsound : Sound collection) {facts : List Fact}
    (hresult : enterAll facts collection = .ok () merged) : collection.Extends merged := by
  have hentered := hsound.enteredAll hresult
  have hfacts : collection.facts ⊆ merged.facts := by
    rw [hentered.facts_eq]
    exact Set.subset_union_left
  have hrelations : collection.relations <+: merged.relations := by
    rw [hsound.relations_enterAll_lacking hresult]
    exact List.prefix_append _ _
  refine ⟨fun id home hhome => ?homes, hrelations, fun edge classifier hclassifier => ?classifiers,
    fun direction id => ?neighbours, fun id hknown => ?known, fun edge tree hdetail => ?details⟩
  case homes => exact @hfacts (.home id home) hhome
  case classifiers =>
    rw [hsound.classifiers] at hclassifier
    exact (hentered.sound.classifiers edge classifier).2 (hrelations.subset hclassifier)
  case neighbours =>
    rw [hsound.neighbours, hentered.sound.neighbours]
    exact hrelations.filterMap _
  case known => exact @hfacts (.known id) hknown
  case details => exact @hfacts (.detail edge tree) hdetail

/-- The merge of a tree puts the edges of the tree in reach whose pair was not recorded behind
the relations that were, each once and in the order in which they come first in pre-order, and
read in the direction of the tree.  The homes of the nodes above the bound and the ids of the
nodes down to it are added, and nothing that was recorded is taken away or changed. -/
theorem Built.mergeTree_adds_in_preorder (hbuilt : Built collection)
    (hresult : collection.afterMerging (mergeTree tree bound) = .ok merged) :
    merged.relations = collection.relations ++ (((tree.occurrencesWithin bound).map
        Occurrence.relation).filter collection.lacks).eraseDups ∧
      (merged.relations.map Relation.edge).Nodup ∧
      (tree.Ascending → tree.occurrences.Pairwise Occurrence.Before) ∧
      (∀ depth relation, (∃ occurrence ∈ tree.occurrences,
          occurrence.position.length = depth + 1 ∧ occurrence.relation = relation) ↔
        ∃ node, tree.NodeAt depth node ∧ ∃ link ∈ node.children.links,
          (tree.direction.edge node.id link.2.id).relation link.1 = relation) ∧
      (∀ id home, merged.home id = some home ↔ collection.home id = some home ∨
        ∃ depth node, tree.NodeAt depth node ∧ (bound = 0 ∨ depth < bound) ∧
          node.id = id ∧ node.home = some home) ∧
      (∀ id, id ∈ merged.datasetIds ↔ id ∈ collection.datasetIds ∨
        ∃ depth node, tree.NodeAt depth node ∧ (bound = 0 ∨ depth ≤ bound) ∧ node.id = id) ∧
      collection.Extends merged := by
  have hsound := hbuilt.sound
  rw [afterMerging_eq_ok, mergeTree_eq] at hresult
  obtain ⟨_, hfaults, hfacts⟩ :=
    (hsound.mergeTreeWith_eq_ok_iff LeafCheck.search_passes).1 hresult
  have hdirection := Tree.oneDirection_iff_entries.2 hfaults
  have hentered := hsound.enteredAll hfacts
  have hmerged : merged.facts = collection.facts ∪ tree.facts bound := by
    rw [hentered.facts_eq, Tree.contents_entries hdirection]
  refine ⟨?relations, hentered.sound.distinct, Tree.pairwise_occurrencesIn,
    fun _ _ => Tree.exists_occurrence_iff, fun id home => ?homes, fun id => ?known,
    hsound.extends_of_enterAll hfacts⟩
  case relations =>
    rw [hsound.relations_enterAll_lacking hfacts, ← Tree.relations_entries_eq hdirection]
    rfl
  case homes =>
    have hhomes := Set.ext_iff.1 hmerged (.home id home)
    rw [Set.mem_union, home_mem_facts, home_mem_facts] at hhomes
    rw [hhomes]
    apply or_congr_right
    constructor
    · intro hstates
      cases hstates with
      | home hnode hdepth hhome => exact ⟨_, _, hnode, hdepth, rfl, hhome⟩
    · rintro ⟨depth, node, hnode, hdepth, rfl, hhome⟩
      exact .home hnode hdepth hhome
  case known =>
    have hknown := Set.ext_iff.1 hmerged (.known id)
    rw [Set.mem_union, known_mem_facts, known_mem_facts] at hknown
    rw [datasetIds, datasetIds, ← OrderedMap.contains_iff_mem_keys,
      ← OrderedMap.contains_iff_mem_keys]
    refine hknown.trans (or_congr_right ?_)
    constructor
    · intro hstates
      cases hstates with
      | known hnode hdepth => exact ⟨_, _, hnode, hdepth, rfl⟩
    · rintro ⟨depth, node, hnode, hdepth, rfl⟩
      exact .known hnode hdepth

/-- A tree that shows a dataset twice, with what is below it. -/
def repetition : Tree :=
  .node .derived (.numbered 1) none (.populated [
    ("bias", List.replicate 2 (.node .derived (.numbered 2) (some "agdc")
      (.populated [("nbar", [.placeholder (.numbered 4) .derived])]))),
    ("nbar", [.leaf (.numbered 3) .derived])])

set_option maxRecDepth 5000 in
/-- A repetition down to two levels: the edges that are new come in pre-order, each of them once,
and the one that was recorded stays where it was. -/
theorem mergeTree_adds_in_preorder_of_repetition :
    ∃ collection merged, Built collection ∧
      collection.relations = [⟨"bias", .numbered 1, .numbered 2⟩] ∧
      collection.afterMerging (mergeTree repetition 2) = .ok merged ∧
      merged.relations = [⟨"bias", .numbered 1, .numbered 2⟩,
        ⟨"nbar", .numbered 2, .numbered 4⟩, ⟨"nbar", .numbered 1, .numbered 3⟩] ∧
      merged.home (.numbered 2) = some "agdc" := by
  have hbuilt : Built (empty.insertRelation ⟨"bias", .numbered 1, .numbered 2⟩) :=
    .change (.relation ⟨"bias", .numbered 1, .numbered 2⟩) .empty rfl
  have hfaultless : Change.Faultless (.tree repetition 2) := by decide
  obtain ⟨merged, hentered⟩ : ∃ merged, enterAll (Entry.facts (repetition.entries (.ofBound 2)))
      (empty.insertRelation ⟨"bias", .numbered 1, .numbered 2⟩) = .ok () merged := ⟨_, rfl⟩
  have hmerged : _ = Except.ok merged :=
    afterMerging_eq_ok.2 (hbuilt.sound.perform_eq_ok_iff.2 ⟨hfaultless, hentered⟩)
  obtain ⟨hrelations, _, _, _, hhomes, _⟩ := hbuilt.mergeTree_adds_in_preorder hmerged
  refine ⟨_, merged, hbuilt, rfl, hmerged, hrelations.trans (by decide), (hhomes _ _).2 (.inr ?_)⟩
  exact ⟨1, _, .under List.mem_cons_self (.root _), .inr (by decide), rfl, rfl⟩

end Collection

end DatasetLineage
