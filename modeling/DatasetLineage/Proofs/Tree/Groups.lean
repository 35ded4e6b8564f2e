import DatasetLineage.Tree.Basic
import Mathlib.Data.String.Basic

/-!
# Groups of children

Children are put one after the other into the groups of their classifiers.  The groups
stay in ascending order and none of them is empty, and they hold the children that were
put in and no others.  Taking the groups apart again, in their order, and putting the
children in once more gives the same groups.
-/

namespace DatasetLineage

variable {Node : Type} {classifier : String} {node : Node} {groups : List (String × List Node)}

def ungrouped (groups : List (String × List Node)) : List (String × Node) :=
  groups.flatMap fun group => group.2.map fun node => (group.1, node)

def grouped (links : List (String × Node)) : List (String × List Node) :=
  links.foldl (fun groups link => addToGroup link.1 link.2 groups) []

@[simp]
theorem ungrouped_nil : ungrouped ([] : List (String × List Node)) = [] := rfl

@[simp]
theorem ungrouped_cons (classifier : String) (nodes : List Node)
    (rest : List (String × List Node)) :
    ungrouped ((classifier, nodes) :: rest) =
      nodes.map (fun node => (classifier, node)) ++ ungrouped rest := rfl

theorem Children.links_ofGroups (groups : List (String × List Node)) :
    (ofGroups groups).links = ungrouped groups := by
  cases groups with
  | nil => rfl
  | cons group rest => rfl

/-! ## What groups hold -/

theorem ungrouped_addToGroup (classifier : String) (node : Node)
    (groups : List (String × List Node)) :
    (ungrouped (addToGroup classifier node groups)).Perm
      ((classifier, node) :: ungrouped groups) := by
  induction groups with
  | nil => exact .refl _
  | cons group rest ih =>
      obtain ⟨other, nodes⟩ := group
      rw [addToGroup]
      by_cases hlt : classifier < other
      · rw [if_pos hlt]
        simp
      · rw [if_neg hlt]
        by_cases heq : classifier = other
        · subst heq
          simp [List.perm_middle]
        · rw [if_neg heq]
          simp only [ungrouped_cons]
          calc
            nodes.map (fun node => (other, node)) ++ ungrouped (addToGroup classifier node rest)
            _ |>.Perm (nodes.map (fun node => (other, node)) ++
                (classifier, node) :: ungrouped rest) := ih.append_left _
            _ |>.Perm ((classifier, node) ::
                (nodes.map (fun node => (other, node)) ++ ungrouped rest)) := List.perm_middle

/-- Groups hold the children that were put in, and no others. -/
theorem ungrouped_grouped (links : List (String × Node)) :
    (ungrouped (grouped links)).Perm links := by
  have hfold : ∀ groups : List (String × List Node),
      (ungrouped (links.foldl (fun groups link => addToGroup link.1 link.2 groups) groups)).Perm
        (links ++ ungrouped groups) := by
    induction links with
    | nil =>
        intro groups
        exact .refl _
    | cons link rest ih =>
        intro groups
        have hadded := (ungrouped_addToGroup link.1 link.2 groups).append_left rest
        exact (ih _).trans (hadded.trans List.perm_middle)
  have hempty := hfold []
  rw [ungrouped_nil, List.append_nil] at hempty
  exact hempty

/-! ## Putting the children in again -/

/-- Groups in ascending order, none of them empty. -/
structure Grouped (groups : List (String × List Node)) : Prop where
  ascending : groups.Pairwise fun left right => left.1 < right.1
  nonempty : ∀ group ∈ groups, group.2 ≠ []

theorem mem_addToGroup {group : String × List Node}
    (hmem : group ∈ addToGroup classifier node groups) :
    (group.1 = classifier ∧ group.2 ≠ []) ∨ group ∈ groups := by
  induction groups with
  | nil =>
      rw [addToGroup, List.mem_singleton] at hmem
      simp [hmem]
  | cons head rest ih =>
      obtain ⟨other, nodes⟩ := head
      rw [addToGroup] at hmem
      by_cases hlt : classifier < other
      · rw [if_pos hlt, List.mem_cons] at hmem
        apply hmem.imp_left
        rintro rfl
        simp
      · rw [if_neg hlt] at hmem
        by_cases heq : classifier = other
        · rw [if_pos heq, List.mem_cons] at hmem
          apply hmem.imp
          · rintro rfl
            simp [heq]
          · exact List.mem_cons_of_mem _
        · rw [if_neg heq, List.mem_cons] at hmem
          cases hmem with
          | inl hhead => exact .inr (hhead ▸ List.mem_cons_self)
          | inr hrest => exact (ih hrest).imp_right (List.mem_cons_of_mem _)

theorem grouped_nil : Grouped ([] : List (String × List Node)) where
  ascending := List.Pairwise.nil
  nonempty := by simp

theorem Grouped.tail {head : String × List Node} (hgrouped : Grouped (head :: groups)) :
    Grouped groups where
  ascending := (List.pairwise_cons.1 hgrouped.ascending).2
  nonempty := fun group hgroup => hgrouped.nonempty group (List.mem_cons_of_mem _ hgroup)

theorem Grouped.cons {head : String × List Node} (hgrouped : Grouped groups)
    (hhead : ∀ group ∈ groups, head.1 < group.1) (hnodes : head.2 ≠ []) :
    Grouped (head :: groups) where
  ascending := List.pairwise_cons.2 ⟨hhead, hgrouped.ascending⟩
  nonempty := List.forall_mem_cons.2 ⟨hnodes, hgrouped.nonempty⟩

theorem Grouped.addToGroup (hgrouped : Grouped groups) :
    Grouped (addToGroup classifier node groups) := by
  induction groups with
  | nil =>
      apply grouped_nil.cons
      · simp
      · simp
  | cons head rest ih =>
      obtain ⟨other, nodes⟩ := head
      have hhead : ∀ group ∈ rest, other < group.1 :=
        (List.pairwise_cons.1 hgrouped.ascending).1
      have hnodes : nodes ≠ [] := hgrouped.nonempty _ List.mem_cons_self
      rw [DatasetLineage.addToGroup]
      by_cases hlt : classifier < other
      · rw [if_pos hlt]
        apply hgrouped.cons
        · intro group hgroup
          cases List.mem_cons.1 hgroup with
          | inl heq => exact heq ▸ hlt
          | inr hrest => exact lt_trans hlt (hhead group hrest)
        · simp
      · rw [if_neg hlt]
        by_cases heq : classifier = other
        · rw [if_pos heq]
          apply hgrouped.tail.cons hhead
          simp
        · rw [if_neg heq]
          have hgt : other < classifier := lt_of_le_of_ne (not_lt.1 hlt) (Ne.symm heq)
          apply (ih hgrouped.tail).cons _ hnodes
          intro group hgroup
          cases mem_addToGroup hgroup with
          | inl hadded => exact hadded.1 ▸ hgt
          | inr hrest => exact hhead group hrest

/-- Children that are put into groups one after the other are grouped. -/
theorem Grouped.of_links (links : List (String × Node)) : Grouped (grouped links) := by
  have hfold : ∀ groups : List (String × List Node), Grouped groups →
      Grouped (links.foldl (fun groups link => DatasetLineage.addToGroup link.1 link.2 groups)
        groups) := by
    induction links with
    | nil =>
        intro groups hgrouped
        exact hgrouped
    | cons link rest ih =>
        intro groups hgrouped
        exact ih _ hgrouped.addToGroup
  exact hfold [] grouped_nil

/-- A child of a classifier behind all others starts a group behind all others. -/
theorem addToGroup_last (hbehind : ∀ group ∈ groups, group.1 < classifier) :
    addToGroup classifier node groups = groups ++ [(classifier, [node])] := by
  induction groups with
  | nil => rfl
  | cons head rest ih =>
      obtain ⟨other, nodes⟩ := head
      have hgt : other < classifier := hbehind _ List.mem_cons_self
      rw [addToGroup, if_neg (not_lt_of_gt hgt), if_neg (ne_of_gt hgt),
        ih fun group hgroup => hbehind group (List.mem_cons_of_mem _ hgroup)]
      rfl

theorem addToGroup_last_group {nodes : List Node}
    (hbehind : ∀ group ∈ groups, group.1 < classifier) :
    addToGroup classifier node (groups ++ [(classifier, nodes)]) =
      groups ++ [(classifier, nodes ++ [node])] := by
  induction groups with
  | nil => simp [addToGroup]
  | cons head rest ih =>
      obtain ⟨other, others⟩ := head
      have hgt : other < classifier := hbehind _ List.mem_cons_self
      rw [List.cons_append, addToGroup, if_neg (not_lt_of_gt hgt), if_neg (ne_of_gt hgt),
        ih fun group hgroup => hbehind group (List.mem_cons_of_mem _ hgroup)]
      rfl

/-- Putting in the children of one classifier makes up their group. -/
theorem foldl_addToGroup_last {nodes more : List Node}
    (hbehind : ∀ group ∈ groups, group.1 < classifier) :
    (more.map fun node => (classifier, node)).foldl
        (fun groups link => addToGroup link.1 link.2 groups) (groups ++ [(classifier, nodes)]) =
      groups ++ [(classifier, nodes ++ more)] := by
  induction more generalizing nodes with
  | nil => simp
  | cons node rest ih =>
      rw [List.map_cons, List.foldl_cons, addToGroup_last_group hbehind, ih]
      simp

/-- Groups that are taken apart and put together again are the same. -/
theorem Grouped.grouped_ungrouped (hgrouped : Grouped groups) :
    grouped (ungrouped groups) = groups := by
  have hfold : ∀ before : List (String × List Node), Grouped (before ++ groups) →
      (ungrouped groups).foldl (fun groups link => DatasetLineage.addToGroup link.1 link.2 groups)
        before = before ++ groups := by
    clear hgrouped
    induction groups with
    | nil => simp
    | cons head rest ih =>
        intro before hgrouped
        obtain ⟨classifier, nodes⟩ := head
        have hbehind : ∀ group ∈ before, group.1 < classifier := by
          intro group hgroup
          exact (List.pairwise_append.1 hgrouped.ascending).2.2 group hgroup _ List.mem_cons_self
        have hnodes : nodes ≠ [] := by
          apply hgrouped.nonempty (classifier, nodes)
          simp
        have hsplit : before ++ (classifier, nodes) :: rest =
            (before ++ [(classifier, nodes)]) ++ rest := by simp
        cases nodes with
        | nil => exact absurd rfl hnodes
        | cons node more =>
            rw [ungrouped_cons, List.foldl_append, List.map_cons, List.foldl_cons,
              addToGroup_last hbehind, foldl_addToGroup_last hbehind, hsplit]
            rw [hsplit] at hgrouped
            exact ih _ hgrouped
  exact hfold [] hgrouped

end DatasetLineage
