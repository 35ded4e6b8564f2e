import DatasetLineage.Proofs.Tree.Groups
import Mathlib.Data.List.Forall2

/-!
# Trees up to the order of siblings

The order in which the children of one classifier stand in their group depends on the order
in which their relations were first seen.  Trees are alike if they differ in that order
only: node for node they have the same dataset, the same home, the same classifiers, and
the same state of exploration.  Links that come in another order give groups, and so trees,
that are alike.
-/

namespace DatasetLineage

variable {Node : Type} {classifier : String} {groups : List (String × List Node)}

/-! ## Groups up to the order of siblings -/

/-- Two groups of one classifier that hold the same children, perhaps in another order. -/
def Reordered (left right : String × List Node) : Prop :=
  left.1 = right.1 ∧ left.2.Perm right.2

theorem mem_ungrouped {link : String × Node} :
    link ∈ ungrouped groups ↔ ∃ group ∈ groups, group.1 = link.1 ∧ link.2 ∈ group.2 := by
  simp only [ungrouped, List.mem_flatMap, List.mem_map]
  constructor
  · rintro ⟨group, hgroup, node, hnode, rfl⟩
    exact ⟨group, hgroup, rfl, hnode⟩
  · rintro ⟨group, hgroup, hclassifier, hnode⟩
    exact ⟨group, hgroup, link.2, hnode, Prod.ext hclassifier rfl⟩

section Head

variable {nodes : List Node} {rest : List (String × List Node)}

/-- Children of the groups behind the first one have a later classifier. -/
theorem Grouped.head_lt (hgrouped : Grouped ((classifier, nodes) :: rest)) {link : String × Node}
    (hlink : link ∈ ungrouped rest) : classifier < link.1 := by
  obtain ⟨group, hgroup, hclassifier, _⟩ := mem_ungrouped.1 hlink
  rw [← hclassifier]
  exact (List.pairwise_cons.1 hgrouped.ascending).1 group hgroup

theorem Grouped.head_le (hgrouped : Grouped ((classifier, nodes) :: rest)) {link : String × Node}
    (hlink : link ∈ ungrouped ((classifier, nodes) :: rest)) : classifier ≤ link.1 := by
  rw [ungrouped_cons, List.mem_append, List.mem_map] at hlink
  rcases hlink with ⟨node, _, rfl⟩ | hrest
  · exact le_refl _
  · exact le_of_lt (hgrouped.head_lt hrest)

theorem Grouped.exists_head (hgrouped : Grouped ((classifier, nodes) :: rest)) :
    ∃ node, (classifier, node) ∈ ungrouped ((classifier, nodes) :: rest) := by
  obtain ⟨node, hnode⟩ := List.exists_mem_of_ne_nil _
    (hgrouped.nonempty (classifier, nodes) List.mem_cons_self)
  exact ⟨node, mem_ungrouped.2 ⟨_, List.mem_cons_self, rfl, hnode⟩⟩

/-- The first group can be told from the rest by its classifier. -/
theorem Grouped.filter_head (hgrouped : Grouped ((classifier, nodes) :: rest)) :
    (ungrouped ((classifier, nodes) :: rest)).filter (fun link => link.1 = classifier) =
      nodes.map fun node => (classifier, node) := by
  have hrest : (ungrouped rest).filter (fun link => link.1 = classifier) = [] := by
    rw [List.filter_eq_nil_iff]
    intro link hlink
    simpa using ne_of_gt (hgrouped.head_lt hlink)
  rw [ungrouped_cons, List.filter_append, hrest, List.append_nil, List.filter_eq_self]
  simp

theorem Grouped.filter_tail (hgrouped : Grouped ((classifier, nodes) :: rest)) :
    (ungrouped ((classifier, nodes) :: rest)).filter (fun link => link.1 ≠ classifier) =
      ungrouped rest := by
  have hhead : (nodes.map fun node => (classifier, node)).filter
      (fun link => link.1 ≠ classifier) = [] := by
    simp [List.filter_eq_nil_iff]
  rw [ungrouped_cons, List.filter_append, hhead, List.nil_append, List.filter_eq_self]
  intro link hlink
  simpa using ne_of_gt (hgrouped.head_lt hlink)

end Head

/-- Groups are determined by the children they hold, up to the order of siblings. -/
theorem Grouped.reordered {left right : List (String × List Node)} (hleft : Grouped left)
    (hright : Grouped right) (hperm : (ungrouped left).Perm (ungrouped right)) :
    List.Forall₂ Reordered left right := by
  induction left generalizing right with
  | nil =>
      cases right with
      | nil => exact .nil
      | cons group rest =>
          obtain ⟨node, hnode⟩ := hright.exists_head
          exact absurd (hperm.mem_iff.2 hnode) List.not_mem_nil
  | cons group rest ih =>
      obtain ⟨classifier, nodes⟩ := group
      obtain ⟨node, hnode⟩ := hleft.exists_head
      cases right with
      | nil => exact absurd (hperm.mem_iff.1 hnode) List.not_mem_nil
      | cons other otherRest =>
          obtain ⟨otherClassifier, otherNodes⟩ := other
          obtain ⟨otherNode, hother⟩ := hright.exists_head
          -- The first classifier is the least one, on either side.
          have hsame : classifier = otherClassifier :=
            le_antisymm (hleft.head_le (hperm.mem_iff.2 hother))
              (hright.head_le (hperm.mem_iff.1 hnode))
          subst hsame
          have hheads := hperm.filter fun link => link.1 = classifier
          have htails := hperm.filter fun link => link.1 ≠ classifier
          rw [hleft.filter_head, hright.filter_head] at hheads
          rw [hleft.filter_tail, hright.filter_tail] at htails
          have hnodes : nodes.Perm otherNodes := by
            simpa using hheads.map Prod.snd
          exact .cons ⟨rfl, hnodes⟩ (ih hleft.tail hright.tail htails)

/-- Children that come in another order make up the same groups, up to the order of
siblings. -/
theorem reordered_grouped {left right : List (String × Node)} (hperm : left.Perm right) :
    List.Forall₂ Reordered (grouped left) (grouped right) := by
  apply (Grouped.of_links left).reordered (Grouped.of_links right)
  exact (ungrouped_grouped left).trans (hperm.trans (ungrouped_grouped right).symm)

section Images

variable {Other : Type} (image : Node → Other)

def mapGroup (group : String × List Node) : String × List Other :=
  (group.1, group.2.map image)

theorem addToGroup_map (classifier : String) (node : Node) (groups : List (String × List Node)) :
    addToGroup classifier (image node) (groups.map (mapGroup image)) =
      (addToGroup classifier node groups).map (mapGroup image) := by
  induction groups with
  | nil => rfl
  | cons group rest ih =>
      obtain ⟨other, nodes⟩ := group
      rw [List.map_cons, mapGroup, addToGroup, addToGroup]
      by_cases hlt : classifier < other
      · rw [if_pos hlt, if_pos hlt]
        rfl
      · rw [if_neg hlt, if_neg hlt]
        by_cases heq : classifier = other
        · rw [if_pos heq, if_pos heq]
          simp [mapGroup]
        · rw [if_neg heq, if_neg heq, List.map_cons, ih]
          rfl

/-- Grouping looks at classifiers only. -/
theorem grouped_map (links : List (String × Node)) :
    grouped (links.map fun link => (link.1, image link.2)) =
      (grouped links).map (mapGroup image) := by
  have hfold : ∀ groups : List (String × List Node),
      (links.map fun link => (link.1, image link.2)).foldl
          (fun groups link => addToGroup link.1 link.2 groups) (groups.map (mapGroup image)) =
        (links.foldl (fun groups link => addToGroup link.1 link.2 groups) groups).map
          (mapGroup image) := by
    induction links with
    | nil =>
        intro groups
        rfl
    | cons link rest ih =>
        intro groups
        rw [List.map_cons, List.foldl_cons, List.foldl_cons]
        change List.foldl _ (addToGroup link.1 (image link.2) _) _ = _
        rw [addToGroup_map]
        exact ih _
  exact hfold []

end Images

/-! ## Trees -/

/-- Two groups of one classifier whose nodes can be put in an order in which they are
related one by one. -/
inductive Siblings (related : Node → Node → Prop) :
    String × List Node → String × List Node → Prop
  | reorder {classifier : String} {left middle right : List Node} :
      left.Perm middle → List.Forall₂ related middle right →
        Siblings related (classifier, left) (classifier, right)

/-- Two trees that differ in the order of siblings within a group only. -/
inductive Tree.Alike : Tree → Tree → Prop
  | unknown (direction : Direction) (id : DatasetId) (home : Option String) :
      Alike (.node direction id home .unknown) (.node direction id home .unknown)
  | empty (direction : Direction) (id : DatasetId) (home : Option String) :
      Alike (.node direction id home .empty) (.node direction id home .empty)
  | populated (direction : Direction) (id : DatasetId) (home : Option String)
      {left right : List (String × List Tree)} :
      List.Forall₂ (Siblings Alike) left right →
        Alike (.node direction id home (.populated left))
          (.node direction id home (.populated right))

/-- Nodes made of the same links, group by group, are siblings in either order. -/
theorem Reordered.siblings {Link : Type} {related : Node → Node → Prop}
    {first second : Link → Node} {left right : String × List Link}
    (hreordered : Reordered left right)
    (hrelated : ∀ link ∈ left.2, related (first link) (second link)) :
    Siblings related (mapGroup first left) (mapGroup second right) := by
  obtain ⟨classifier, leftLinks⟩ := left
  obtain ⟨otherClassifier, rightLinks⟩ := right
  obtain ⟨hclassifier, hperm⟩ := hreordered
  cases hclassifier
  apply Siblings.reorder (hperm.map first)
  rw [List.forall₂_map_left_iff, List.forall₂_map_right_iff, List.forall₂_same]
  intro link hlink
  exact hrelated link (hperm.mem_iff.2 hlink)

theorem siblings_grouped {Link : Type} {related : Node → Node → Prop}
    {first second : Link → Node} {left right : List (String × Link)} (hperm : left.Perm right)
    (hrelated : ∀ link ∈ left, related (first link.2) (second link.2)) :
    List.Forall₂ (Siblings related) (grouped (left.map fun link => (link.1, first link.2)))
      (grouped (right.map fun link => (link.1, second link.2))) := by
  have hmembers : ∀ group ∈ grouped left, ∀ link ∈ group.2, related (first link) (second link) := by
    intro group hgroup link hlink
    apply hrelated (group.1, link)
    rw [← (ungrouped_grouped left).mem_iff]
    exact mem_ungrouped.2 ⟨group, hgroup, rfl, hlink⟩
  rw [grouped_map, grouped_map, List.forall₂_map_left_iff, List.forall₂_map_right_iff]
  have hreordered := (List.forall₂_and_left _ _).2 ⟨hmembers, reordered_grouped hperm⟩
  exact hreordered.imp fun left right hboth => hboth.2.siblings hboth.1

/-- Nodes over the same links are alike if the trees below each link are. -/
theorem Tree.alike_of_links {Link : Type} {first second : Link → Tree}
    {left right : List (String × Link)} (direction : Direction) (id : DatasetId)
    (home : Option String) (hperm : left.Perm right)
    (halike : ∀ link ∈ left, (first link.2).Alike (second link.2)) :
    Alike
      (.node direction id home (.ofGroups (grouped (left.map fun link => (link.1, first link.2)))))
      (.node direction id home
        (.ofGroups (grouped (right.map fun link => (link.1, second link.2))))) := by
  have hsiblings := siblings_grouped hperm halike
  revert hsiblings
  generalize grouped (left.map fun link => (link.1, first link.2)) = leftGroups
  generalize grouped (right.map fun link => (link.1, second link.2)) = rightGroups
  intro hsiblings
  cases hsiblings with
  | nil => exact .empty direction id home
  | cons hgroup hrest => exact .populated direction id home (.cons hgroup hrest)

end DatasetLineage
