import DatasetLineage.Proofs.Tree.Nodes

/-!
# Repetitions in a tree, and searching it

A dataset may stand on many branches of a tree, but the ids below a root are listed only if no
branch meets a dataset twice, and a refusal names a dataset that one of them meets twice.  A
search finds a node for the root and for every id that is listed, and nothing for other ids.
-/

namespace DatasetLineage

namespace Tree

variable {tree : Tree} {id : DatasetId}

/-! ## Searching -/

theorem findInList?_eq (wanted : DatasetId) (classifier : String) (nodes : List Tree) :
    findInList? wanted nodes =
      (nodes.map fun node => (classifier, node)).findSome? fun link => find? wanted link.2 := by
  induction nodes with
  | nil => rfl
  | cons child rest ih =>
      rw [findInList?, List.map_cons, List.findSome?_cons, ih]
      cases find? wanted child <;> rfl

theorem findInGroups?_eq (wanted : DatasetId) (groups : List (String × List Tree)) :
    findInGroups? wanted groups =
      (Children.links (.populated groups)).findSome? fun link => find? wanted link.2 := by
  induction groups with
  | nil => rfl
  | cons group rest ih =>
      obtain ⟨classifier, nodes⟩ := group
      have hlinks : Children.links (.populated ((classifier, nodes) :: rest)) =
          nodes.map (fun node => (classifier, node)) ++ Children.links (.populated rest) := rfl
      rw [findInGroups?, ih, findInList?_eq wanted classifier, hlinks, List.findSome?_append,
        Option.orElse_eq_orElse, Option.orElse_eq_or]

/-- A search looks at the root, and then below its children one after the other. -/
theorem find?_eq (wanted : DatasetId) (tree : Tree) :
    tree.find? wanted =
      if tree.id = wanted then some tree
      else tree.children.links.findSome? fun link => find? wanted link.2 := by
  obtain ⟨direction, id, home, children⟩ := tree
  cases children with
  | unknown => rfl
  | empty => rfl
  | populated groups =>
      rw [find?, findInGroups?_eq]
      rfl

/-- What a search finds is a node of the tree with the id that was wanted. -/
theorem exists_nodeAt_of_find? {node : Tree} (hfound : tree.find? id = some node) :
    node.id = id ∧ ∃ depth, tree.NodeAt depth node := by
  induction tree using Tree.induction with
  | node direction root home children ih =>
      rw [find?_eq] at hfound
      split at hfound
      · next hroot =>
          cases hfound
          exact ⟨hroot, 0, .root _⟩
      · obtain ⟨link, hlink, hfound⟩ := List.exists_of_findSome?_eq_some hfound
        obtain ⟨hid, depth, hnode⟩ := ih link hlink hfound
        exact ⟨hid, depth + 1, .under hlink hnode⟩

/-- A search finds nothing only if the id is neither that of the root nor below it. -/
theorem find?_eq_none_iff : tree.find? id = none ↔ ¬(id = tree.id ∨ tree.Mentions id) := by
  induction tree using Tree.induction with
  | node direction root home children ih =>
      have hbelow : (∀ link ∈ children.links, link.2.find? id = none) ↔
          ¬(node direction root home children).Mentions id := by
        rw [mentions_iff, forall₂_congr ih]
        simp [Tree.children, eq_comm]
      rw [find?_eq, not_or, ← hbelow]
      change (if root = id then _ else _) = none ↔ ¬ id = root ∧ _
      by_cases hroot : root = id
      · simp [hroot]
      · rw [if_neg hroot, List.findSome?_eq_none_iff]
        exact (and_iff_right (Ne.symm hroot)).symm

theorem exists_find?_iff :
    (∃ node, tree.find? id = some node) ↔ id = tree.id ∨ tree.Mentions id := by
  rw [← Option.isSome_iff_exists, ← Option.ne_none_iff_isSome, Ne, find?_eq_none_iff, not_not]

/-! ## Repetitions -/

/-- The ids below a root cannot be listed exactly if some node comes again among its own
descendants, and the error then names such a node; a dataset that comes again only on different
branches is never named.  Otherwise the ids of all nodes below the root are listed, and a search
finds a node for each of them and for the root, and for no other id. -/
theorem childDatasets_refused_iff_repeating (tree : Tree) :
    ((∃ error, tree.childDatasets = .error error) ↔
        ∃ depth node, tree.NodeAt depth node ∧ node.Mentions node.id) ∧
      (∀ error, tree.childDatasets = .error error →
        ∃ depth node, tree.NodeAt depth node ∧ node.Mentions node.id ∧
          error = .cyclicTree node.id) ∧
      (∀ id, (∀ depth node, tree.NodeAt depth node → node.id = id → ¬ node.Mentions id) →
        tree.childDatasets ≠ .error (.cyclicTree id)) ∧
      ∀ ids, tree.childDatasets = .ok ids → ∀ id,
        (ids.contains id = true ↔ ∃ depth node, tree.NodeAt (depth + 1) node ∧ node.id = id) ∧
          (id = tree.id ∨ ids.contains id = true →
            ∃ depth node, tree.find? id = some node ∧ tree.NodeAt depth node ∧ node.id = id) ∧
          (¬(id = tree.id ∨ ids.contains id = true) → tree.find? id = none) := by
  have hnames : ∀ error, tree.childDatasets = .error error → ∃ depth node,
      tree.NodeAt depth node ∧ node.Mentions node.id ∧ error = .cyclicTree node.id :=
    fun error => exists_repeating_of_childDatasets
  refine ⟨⟨fun ⟨error, herror⟩ => ?_, fun hrepeating => ?_⟩, hnames, fun id honce herror => ?_,
    fun ids hids id => ?_⟩
  · obtain ⟨depth, node, hnode, hmentions, _⟩ := hnames error herror
    exact ⟨depth, node, hnode, hmentions⟩
  · obtain ⟨depth, node, hnode, hmentions⟩ := hrepeating
    cases hresult : tree.childDatasets with
    | error error => exact ⟨error, rfl⟩
    | ok ids => exact absurd hmentions ((listed tree).nonRepeating ids hresult depth node hnode)
  · obtain ⟨depth, node, hnode, hmentions, hnamed⟩ := hnames _ herror
    cases hnamed
    exact honce depth node hnode rfl hmentions
  · have hcontains : ids.contains id = true ↔ tree.Mentions id :=
      (listed tree).contains_iff ids hids id
    refine ⟨hcontains, fun hid => ?_, fun hid => ?_⟩
    · rw [hcontains] at hid
      obtain ⟨node, hfound⟩ := exists_find?_iff.2 hid
      obtain ⟨hid, depth, hnode⟩ := exists_nodeAt_of_find? hfound
      exact ⟨depth, node, hfound, hnode, hid⟩
    · rw [hcontains] at hid
      exact find?_eq_none_iff.2 hid

end Tree

end DatasetLineage
