import DatasetLineage.Proofs.Collection.Lockstep
import DatasetLineage.Proofs.Tree.Nodes

/-!
# Edges in pre-order

The edges of a tree in depth-first pre-order: an edge comes before the edges below its child,
and these come before the next sibling.  An edge stands at a position, which says group by group
and place by place how to get to its child from the root.  If the groups of every node ascend,
pre-order is the lexicographic order of the positions.
-/

namespace DatasetLineage

/-- One step from a node down to a child: the classifier of its group, and its place there. -/
structure Step where
  classifier : String
  place : Nat

/-- A step to an earlier group, or to an earlier place of the same group. -/
def Step.Before (first second : Step) : Prop :=
  first.classifier < second.classifier ∨
    first.classifier = second.classifier ∧ first.place < second.place

/-- A relation at the position in a tree where an edge states it. -/
structure Occurrence where
  position : List Step
  relation : Relation

namespace Occurrence

def under (step : Step) (occurrence : Occurrence) : Occurrence :=
  ⟨step :: occurrence.position, occurrence.relation⟩

def Before (first second : Occurrence) : Prop :=
  List.Lex Step.Before first.position second.position

end Occurrence

mutual

/-- The edges of a tree in pre-order, with relations that are read in a direction. -/
def Tree.occurrencesIn (direction : Direction) : Tree → List Occurrence
  | .node _ id _ (.populated groups) => Tree.groupsOccurrences direction id groups
  | .node _ _ _ _ => []

def Tree.groupsOccurrences (direction : Direction) (parent : DatasetId) :
    List (String × List Tree) → List Occurrence
  | [] => []
  | (classifier, nodes) :: rest =>
      Tree.listOccurrences direction parent classifier 0 nodes ++
        Tree.groupsOccurrences direction parent rest

def Tree.listOccurrences (direction : Direction) (parent : DatasetId) (classifier : String)
    (place : Nat) : List Tree → List Occurrence
  | [] => []
  | child :: rest =>
      ⟨[⟨classifier, place⟩], (direction.edge parent child.id).relation classifier⟩ ::
        (child.occurrencesIn direction).map (.under ⟨classifier, place⟩) ++
          Tree.listOccurrences direction parent classifier (place + 1) rest

end

/-- The edges of a tree in pre-order, with relations that are read in its direction. -/
def Tree.occurrences (tree : Tree) : List Occurrence :=
  tree.occurrencesIn tree.direction

def Children.steps {Node : Type} (children : Children Node) : List (Step × Node) :=
  children.groups.flatMap fun group =>
    group.2.zipIdx.map fun placed => (⟨group.1, placed.2⟩, placed.1)

namespace Children

variable {Node : Type}

theorem links_eq_map_steps (children : Children Node) :
    children.links = children.steps.map fun step => (step.1.classifier, step.2) := by
  rw [links, steps, List.map_flatMap]
  congr 1
  funext group
  rw [List.map_map]
  have hnodes : group.2 = group.2.zipIdx.map Prod.fst := (List.zipIdx_map_fst 0 group.2).symm
  conv_lhs => rw [hnodes, List.map_map]
  rfl

theorem mem_links_iff_step {children : Children Node} {link : String × Node} :
    link ∈ children.links ↔ ∃ step ∈ children.steps, (step.1.classifier, step.2) = link := by
  rw [links_eq_map_steps, List.mem_map]

/-- The steps to the children are in order if the groups ascend. -/
theorem pairwise_steps {children : Children Node}
    (hascending : children.groups.Pairwise fun left right => left.1 < right.1) :
    children.steps.Pairwise fun left right => left.1.Before right.1 := by
  rw [steps, List.pairwise_flatMap]
  constructor
  · intro group _
    have hplaces := List.pairwise_lt_range' (s := 0) (n := group.2.length) 1
    rw [← List.zipIdx_map_snd, List.pairwise_map] at hplaces
    rw [List.pairwise_map]
    exact hplaces.imp fun hlt => .inr ⟨rfl, hlt⟩
  · refine hascending.imp fun {left right} hlt => ?_
    intro first hfirst second hsecond
    obtain ⟨_, _, rfl⟩ := List.mem_map.1 hfirst
    obtain ⟨_, _, rfl⟩ := List.mem_map.1 hsecond
    exact .inl hlt

end Children

namespace Tree

variable {tree : Tree} {direction : Direction} {occurrence : Occurrence}

def occurrencesAlong (direction : Direction) (parent : DatasetId) (step : Step × Tree) :
    List Occurrence :=
  ⟨[step.1], (direction.edge parent step.2.id).relation step.1.classifier⟩ ::
    (step.2.occurrencesIn direction).map (.under step.1)

theorem listOccurrences_eq (direction : Direction) (parent : DatasetId) (classifier : String)
    (place : Nat) (nodes : List Tree) :
    listOccurrences direction parent classifier place nodes =
      (nodes.zipIdx place).flatMap fun placed =>
        occurrencesAlong direction parent (⟨classifier, placed.2⟩, placed.1) := by
  induction nodes generalizing place with
  | nil => rfl
  | cons child rest ih =>
      rw [listOccurrences, List.zipIdx_cons, List.flatMap_cons, ih]
      rfl

theorem groupsOccurrences_eq (direction : Direction) (parent : DatasetId)
    (groups : List (String × List Tree)) :
    groupsOccurrences direction parent groups =
      (Children.steps (.populated groups)).flatMap (occurrencesAlong direction parent) := by
  induction groups with
  | nil => rfl
  | cons group rest ih =>
      obtain ⟨classifier, nodes⟩ := group
      rw [groupsOccurrences, ih, listOccurrences_eq, Children.steps, Children.steps,
        Children.groups, Children.groups, List.flatMap_cons, List.flatMap_append,
        List.flatMap_map]

/-- The edges of a tree, child by child. -/
theorem occurrencesIn_eq (direction : Direction) (tree : Tree) :
    tree.occurrencesIn direction =
      tree.children.steps.flatMap (occurrencesAlong direction tree.id) := by
  obtain ⟨_, id, home, children⟩ := tree
  cases children with
  | unknown => rfl
  | empty => rfl
  | populated groups => exact groupsOccurrences_eq direction id groups

theorem mem_occurrencesIn :
    occurrence ∈ tree.occurrencesIn direction ↔ ∃ step ∈ tree.children.steps,
      occurrence =
          ⟨[step.1], (direction.edge tree.id step.2.id).relation step.1.classifier⟩ ∨
        ∃ below ∈ step.2.occurrencesIn direction, below.under step.1 = occurrence := by
  rw [occurrencesIn_eq]
  simp only [List.mem_flatMap, occurrencesAlong, List.mem_cons, List.mem_map]

/-! ## Positions -/

theorem exists_position_of_mem_along {parent : DatasetId} {step : Step × Tree}
    (hmem : occurrence ∈ occurrencesAlong direction parent step) :
    ∃ rest, occurrence.position = step.1 :: rest := by
  rcases List.mem_cons.1 hmem with rfl | hbelow
  · exact ⟨[], rfl⟩
  · obtain ⟨below, _, rfl⟩ := List.mem_map.1 hbelow
    exact ⟨below.position, rfl⟩

theorem exists_position_of_mem (hmem : occurrence ∈ tree.occurrencesIn direction) :
    ∃ step rest, occurrence.position = step :: rest := by
  rw [occurrencesIn_eq] at hmem
  obtain ⟨step, _, halong⟩ := List.mem_flatMap.1 hmem
  exact ⟨step.1, exists_position_of_mem_along halong⟩

/-- If the groups of every node ascend, edges occur in the order of their positions. -/
theorem pairwise_occurrencesIn (hascending : tree.Ascending) :
    (tree.occurrencesIn direction).Pairwise Occurrence.Before := by
  induction tree using Tree.induction with
  | node _ id home children ih =>
      obtain ⟨hgroups, hlinks⟩ := ascending_iff.1 hascending
      rw [occurrencesIn_eq, List.pairwise_flatMap]
      constructor
      · intro step hstep
        have hlink := Children.mem_links_iff_step.2 ⟨step, hstep, rfl⟩
        rw [occurrencesAlong, List.pairwise_cons, List.pairwise_map]
        constructor
        · intro later hlater
          obtain ⟨below, hbelow, rfl⟩ := List.mem_map.1 hlater
          obtain ⟨next, rest, hposition⟩ := exists_position_of_mem hbelow
          rw [Occurrence.Before, Occurrence.under, hposition]
          exact .cons .nil
        · exact (ih _ hlink (hlinks _ hlink)).imp .cons
      · refine (Children.pairwise_steps hgroups).imp fun {left right} hbefore => ?_
        intro first hfirst second hsecond
        obtain ⟨_, hleft⟩ := exists_position_of_mem_along hfirst
        obtain ⟨_, hright⟩ := exists_position_of_mem_along hsecond
        rw [Occurrence.Before, hleft, hright]
        exact .rel hbefore

/-- The edges of a level are those from the nodes above it to their children. -/
theorem exists_occurrence_iff {depth : Nat} {relation : Relation} :
    (∃ occurrence ∈ tree.occurrencesIn direction,
        occurrence.position.length = depth + 1 ∧ occurrence.relation = relation) ↔
      ∃ node, tree.NodeAt depth node ∧ ∃ link ∈ node.children.links,
        (direction.edge node.id link.2.id).relation link.1 = relation := by
  constructor
  · rintro ⟨occurrence, hmem, hlength, hrelation⟩
    induction depth generalizing tree occurrence with
    | zero =>
        obtain ⟨step, hstep, rfl | ⟨below, hbelow, rfl⟩⟩ := mem_occurrencesIn.1 hmem
        · exact ⟨tree, .root tree, _, Children.mem_links_iff_step.2 ⟨step, hstep, rfl⟩, hrelation⟩
        · obtain ⟨next, rest, hposition⟩ := exists_position_of_mem hbelow
          simp [Occurrence.under, hposition] at hlength
    | succ depth ih =>
        obtain ⟨step, hstep, rfl | ⟨below, hbelow, rfl⟩⟩ := mem_occurrencesIn.1 hmem
        · simp at hlength
        · obtain ⟨node, hnode, hlinks⟩ := ih below hbelow (Nat.succ.inj hlength) hrelation
          have hlink := Children.mem_links_iff_step.2 ⟨step, hstep, rfl⟩
          exact ⟨node, .under hlink hnode, hlinks⟩
  · rintro ⟨node, hnode, link, hlink, hrelation⟩
    induction hnode with
    | root tree =>
        obtain ⟨step, hstep, rfl⟩ := Children.mem_links_iff_step.1 hlink
        exact ⟨_, mem_occurrencesIn.2 ⟨step, hstep, .inl rfl⟩, rfl, hrelation⟩
    | under hfirst _ ih =>
        obtain ⟨step, hstep, rfl⟩ := Children.mem_links_iff_step.1 hfirst
        obtain ⟨below, hbelow, hlength, hsame⟩ := ih hlink hrelation
        exact ⟨_, mem_occurrencesIn.2 ⟨step, hstep, .inr ⟨below, hbelow, rfl⟩⟩,
          congrArg Nat.succ hlength, hsame⟩

end Tree

end DatasetLineage
