import DatasetLineage.Proofs.Tree.Nodes
import DatasetLineage.Proofs.Tree.Siblings

/-!
# Levels of a tree

The nodes of a tree level by level, each with the ids on the way to it, and the number of the
last level that has a node.  A tree is cut off at a level by hiding the children of the nodes
that stand there, whereby a leaf stays a leaf.
-/

namespace DatasetLineage

namespace Children

variable {Node Other : Type}

def map (image : Node → Other) : Children Node → Children Other
  | .unknown => .unknown
  | .empty => .empty
  | .populated groups => .populated (groups.map (mapGroup image))

/-- Children as they are seen from a cut: if there are groups of them, they are not shown. -/
def hidden : Children Node → Children Node
  | .populated _ => .unknown
  | children => children

theorem map_ofGroups (image : Node → Other) (groups : List (String × List Node)) :
    (ofGroups groups).map image = ofGroups (groups.map (mapGroup image)) := by
  cases groups with
  | nil => rfl
  | cons group rest => rfl

theorem map_eq_self {image : Node → Node} {children : Children Node}
    (hsame : ∀ link ∈ children.links, image link.2 = link.2) : children.map image = children := by
  cases children with
  | unknown => rfl
  | empty => rfl
  | populated groups =>
      have hgroups : ∀ group ∈ groups, mapGroup image group = group := by
        intro group hgroup
        have hnodes : ∀ node ∈ group.2, image node = node := by
          intro node hnode
          exact hsame (group.1, node) (mem_ungrouped.2 ⟨group, hgroup, rfl, hnode⟩)
        rw [mapGroup, List.map_congr_left hnodes, List.map_id']
      rw [map, List.map_congr_left hgroups, List.map_id']

theorem hidden_eq_self {children : Children Node} (hnone : children.hasDetail = false) :
    children.hidden = children := by
  cases children with
  | unknown => rfl
  | empty => rfl
  | populated groups => cases hnone

theorem hidden_of_hasDetail {children : Children Node} (hdetail : children.hasDetail = true) :
    children.hidden = .unknown := by
  cases children with
  | unknown => rfl
  | empty => cases hdetail
  | populated groups => rfl

theorem isUnknown_ofGroups (groups : List (String × List Node)) :
    (ofGroups groups).isUnknown = false := by
  cases groups with
  | nil => rfl
  | cons group rest => rfl

end Children

namespace Tree

/-- A tree cut off at a depth: the children of the nodes that stand there are hidden, and all
else is as it was. -/
def truncate : Nat → Tree → Tree
  | 0, .node direction id home children => .node direction id home children.hidden
  | depth + 1, .node direction id home children =>
      .node direction id home (children.map (truncate depth))

/-- The nodes of a depth, each of them with the ids on the way to it from the root. -/
def branches : Nat → Tree → List (List DatasetId × Tree)
  | 0, tree => [([tree.id], tree)]
  | depth + 1, tree => tree.children.links.flatMap fun link =>
      (branches depth link.2).map fun branch => (tree.id :: branch.1, branch.2)

mutual

def height : Tree → Nat
  | .node _ _ _ (.populated groups) => groupsHeight groups
  | .node _ _ _ _ => 0

def groupsHeight : List (String × List Tree) → Nat
  | [] => 0
  | (_, nodes) :: rest => max (listHeight nodes) (groupsHeight rest)

def listHeight : List Tree → Nat
  | [] => 0
  | tree :: rest => max (height tree + 1) (listHeight rest)

end

variable {tree : Tree} {bound : Nat}

/-! ## Branches -/

/-- Every node has a branch that leads to it. -/
theorem nodeAt_iff_exists_branch {depth : Nat} {node : Tree} :
    tree.NodeAt depth node ↔ ∃ ids, (ids, node) ∈ tree.branches depth := by
  induction depth generalizing tree with
  | zero => simp [nodeAt_zero, branches]
  | succ depth ih =>
      rw [nodeAt_succ, branches]
      simp only [List.mem_flatMap, List.mem_map, Prod.mk.injEq, ih]
      constructor
      · rintro ⟨link, hlink, ids, hbranch⟩
        exact ⟨_, link, hlink, (ids, node), hbranch, rfl, rfl⟩
      · rintro ⟨_, link, hlink, ⟨ids, _⟩, hbranch, _, rfl⟩
        exact ⟨link, hlink, ids, hbranch⟩

/-- A branch starts at the root. -/
theorem head?_of_mem_branches {depth : Nat} {branch : List DatasetId × Tree}
    (hbranch : branch ∈ tree.branches depth) : branch.1.head? = some tree.id := by
  cases depth with
  | zero =>
      rw [List.mem_singleton.1 hbranch]
      rfl
  | succ depth =>
      obtain ⟨link, _, hbranch⟩ := List.mem_flatMap.1 hbranch
      obtain ⟨below, _, rfl⟩ := List.mem_map.1 hbranch
      rfl

/-- Branches differ in their ids if siblings do. -/
theorem nodup_branches {depth : Nat}
    (hsiblings : ∀ depth node, tree.NodeAt depth node →
      (node.children.links.map fun link => link.2.id).Nodup) :
    ((tree.branches depth).map Prod.fst).Nodup := by
  induction depth generalizing tree with
  | zero => exact List.nodup_singleton _
  | succ depth ih =>
      have hlinks := hsiblings 0 tree (.root tree)
      rw [List.Nodup, List.pairwise_map] at hlinks
      rw [branches, List.map_flatMap, List.nodup_flatMap]
      constructor
      · intro link hlink
        have hbelow := ih fun depth node hnode => hsiblings (depth + 1) node (.under hlink hnode)
        rw [List.map_map]
        have hcons : (Prod.fst ∘ fun branch : List DatasetId × Tree =>
            (tree.id :: branch.1, branch.2)) = List.cons tree.id ∘ Prod.fst := rfl
        rw [hcons, ← List.map_map]
        exact hbelow.map (List.cons_injective)
      · refine hlinks.imp fun {left right} hids => ?_
        simp only [Function.onFun, List.Disjoint, List.map_map, List.mem_map, Function.comp_apply]
        rintro _ ⟨first, hfirst, rfl⟩ ⟨second, hsecond, heq⟩
        have hheads := head?_of_mem_branches hfirst
        rw [← (List.cons.inj heq).2, head?_of_mem_branches hsecond] at hheads
        exact hids (Option.some.inj hheads).symm

/-! ## Height -/

theorem listHeight_le_iff {nodes : List Tree} :
    listHeight nodes ≤ bound ↔ ∀ node ∈ nodes, node.height < bound := by
  induction nodes with
  | nil => simp [listHeight]
  | cons node rest ih =>
      rw [listHeight, Nat.max_le, ih, List.forall_mem_cons]
      exact and_congr Nat.succ_le_iff Iff.rfl

theorem groupsHeight_le_iff {groups : List (String × List Tree)} :
    groupsHeight groups ≤ bound ↔ ∀ link ∈ ungrouped groups, link.2.height < bound := by
  induction groups with
  | nil => simp [groupsHeight]
  | cons group rest ih =>
      obtain ⟨classifier, nodes⟩ := group
      rw [groupsHeight, Nat.max_le, ih, listHeight_le_iff, ungrouped_cons, List.forall_mem_append,
        List.forall_mem_map]

theorem height_le_iff :
    tree.height ≤ bound ↔ ∀ link ∈ tree.children.links, link.2.height < bound := by
  obtain ⟨direction, id, home, children⟩ := tree
  cases children with
  | unknown => simp [height, children, Children.links, Children.groups]
  | empty => simp [height, children, Children.links, Children.groups]
  | populated groups => exact groupsHeight_le_iff

/-- No node stands deeper than the height of its tree, and one stands that deep. -/
theorem height_le_iff_nodeAt :
    tree.height ≤ bound ↔ ∀ depth node, tree.NodeAt depth node → depth ≤ bound := by
  rw [height_le_iff]
  induction bound generalizing tree with
  | zero =>
      constructor
      · intro hlinks depth node hnode
        cases hnode with
        | root => exact le_refl 0
        | under hlink _ => exact absurd (hlinks _ hlink) (Nat.not_lt_zero _)
      · intro hdepths link hlink
        have hbelow := hdepths 1 link.2 (.under hlink (.root _))
        omega
  | succ bound ih =>
      simp only [Nat.lt_succ_iff, height_le_iff, ih]
      constructor
      · intro hlinks depth node hnode
        cases hnode with
        | root => exact Nat.zero_le _
        | under hlink hbelow => exact Nat.succ_le_succ (hlinks _ hlink _ _ hbelow)
      · intro hdepths link hlink depth node hbelow
        exact Nat.le_of_succ_le_succ (hdepths (depth + 1) node (.under hlink hbelow))

/-- A tree without empty groups is not changed by a cut that no node stands below. -/
theorem truncate_eq_self
    (hlinked : ∀ depth node, tree.NodeAt depth node →
      node.children.hasDetail = true → node.children.links ≠ [])
    (hdepths : ∀ depth node, tree.NodeAt depth node → depth ≤ bound) :
    tree.truncate bound = tree := by
  induction bound generalizing tree with
  | zero =>
      have hnone : tree.children.links = [] := by
        rw [List.eq_nil_iff_forall_not_mem]
        intro link hlink
        exact Nat.not_succ_le_zero 0 (hdepths 1 link.2 (.under hlink (.root _)))
      have hdetail : tree.children.hasDetail = false := by
        refine Bool.eq_false_iff.2 fun hdetail => ?_
        exact hlinked 0 tree (.root tree) hdetail hnone
      obtain ⟨direction, id, home, children⟩ := tree
      exact congrArg (Tree.node direction id home) (Children.hidden_eq_self hdetail)
  | succ bound ih =>
      have hsame : ∀ link ∈ tree.children.links, truncate bound link.2 = link.2 := by
        intro link hlink
        apply ih
        · exact fun depth node hnode => hlinked (depth + 1) node (.under hlink hnode)
        · intro depth node hnode
          exact Nat.le_of_succ_le_succ (hdepths (depth + 1) node (.under hlink hnode))
      obtain ⟨direction, id, home, children⟩ := tree
      exact congrArg (Tree.node direction id home) (Children.map_eq_self hsame)

end Tree

end DatasetLineage
