import DatasetLineage.Proofs.OrderedMap
import DatasetLineage.Proofs.Outcome
import DatasetLineage.Tree.Traversal

/-!
# Nodes of a tree

The nodes of a tree by their depth below the root.  Induction over trees goes through the
links of a node to its children, whatever their groups.  The ids below a root can be
listed exactly if no node comes again among its own descendants.
-/

namespace DatasetLineage

namespace Tree

/-- A property of trees holds if a node has it whenever its children do. -/
theorem induction {motive : Tree → Prop}
    (node : ∀ direction id home children,
      (∀ link ∈ Children.links children, motive link.2) →
        motive (.node direction id home children))
    (tree : Tree) : motive tree := by
  refine @Tree.rec motive (fun children => ∀ link ∈ children.links, motive link.2)
    (fun groups => ∀ group ∈ groups, ∀ tree ∈ group.2, motive tree)
    (fun group => ∀ tree ∈ group.2, motive tree) (fun nodes => ∀ tree ∈ nodes, motive tree)
    node ?unknown ?empty ?populated ?noGroup ?group ?pair ?noNode ?nodes tree
  case unknown => simp [Children.links, Children.groups]
  case empty => simp [Children.links, Children.groups]
  case populated =>
    intro groups ih link hlink
    obtain ⟨group, hgroup, hlink⟩ := List.mem_flatMap.1 hlink
    obtain ⟨tree, htree, rfl⟩ := List.mem_map.1 hlink
    exact ih group hgroup tree htree
  case noGroup => simp
  case group =>
    intro group rest hgroup hrest
    exact List.forall_mem_cons.2 ⟨hgroup, hrest⟩
  case noNode => simp
  case nodes =>
    intro tree rest htree hrest
    exact List.forall_mem_cons.2 ⟨htree, hrest⟩
  case pair =>
    intro classifier nodes hnodes
    exact hnodes

mutual

/-- The comparison of trees decides their equality. -/
theorem same_iff : ∀ left right : Tree, left.same right = true ↔ left = right
  | .node _ _ _ .unknown, .node _ _ _ .unknown => by simp [same, and_assoc]
  | .node _ _ _ .empty, .node _ _ _ .empty => by simp [same, and_assoc]
  | .node _ _ _ (.populated left), .node _ _ _ (.populated right) => by
      simp [same, and_assoc, sameGroups_iff left right]
  | .node _ _ _ .unknown, .node _ _ _ .empty => by simp [same]
  | .node _ _ _ .unknown, .node _ _ _ (.populated _) => by simp [same]
  | .node _ _ _ .empty, .node _ _ _ .unknown => by simp [same]
  | .node _ _ _ .empty, .node _ _ _ (.populated _) => by simp [same]
  | .node _ _ _ (.populated _), .node _ _ _ .unknown => by simp [same]
  | .node _ _ _ (.populated _), .node _ _ _ .empty => by simp [same]

theorem sameGroups_iff :
    ∀ left right : List (String × List Tree), sameGroups left right = true ↔ left = right
  | [], [] => by simp [sameGroups]
  | [], _ :: _ => by simp [sameGroups]
  | _ :: _, [] => by simp [sameGroups]
  | (_, left) :: leftRest, (_, right) :: rightRest => by
      simp [sameGroups, sameLists_iff left right, sameGroups_iff leftRest rightRest]

theorem sameLists_iff : ∀ left right : List Tree, sameLists left right = true ↔ left = right
  | [], [] => by simp [sameLists]
  | [], _ :: _ => by simp [sameLists]
  | _ :: _, [] => by simp [sameLists]
  | left :: leftRest, right :: rightRest => by
      simp [sameLists, same_iff left right, sameLists_iff leftRest rightRest]

end

/-- A node stands some levels of edges below the root of a tree. -/
inductive NodeAt : Tree → Nat → Tree → Prop
  | root (tree : Tree) : NodeAt tree 0 tree
  | under {tree node : Tree} {depth : Nat} {link : String × Tree} :
      link ∈ tree.children.links → NodeAt link.2 depth node → NodeAt tree (depth + 1) node

theorem nodeAt_zero {tree node : Tree} : tree.NodeAt 0 node ↔ node = tree := by
  constructor
  · intro h
    cases h
    rfl
  · rintro rfl
    exact .root _

theorem nodeAt_succ {tree node : Tree} {depth : Nat} :
    tree.NodeAt (depth + 1) node ↔
      ∃ link ∈ tree.children.links, link.2.NodeAt depth node := by
  constructor
  · rintro ⟨⟩
    exact ⟨_, ‹_›, ‹_›⟩
  · intro ⟨link, hlink, hnode⟩
    exact .under hlink hnode

/-- The child of a node stands one level below it. -/
theorem NodeAt.child {tree node : Tree} {depth : Nat} (hnode : tree.NodeAt depth node)
    {link : String × Tree} (hlink : link ∈ node.children.links) :
    tree.NodeAt (depth + 1) link.2 := by
  induction hnode with
  | root tree => exact .under hlink (.root _)
  | under hfirst _ ih => exact .under hfirst (ih hlink)

/-- An id comes somewhere below the root. -/
def Mentions (tree : Tree) (id : DatasetId) : Prop :=
  ∃ depth node, tree.NodeAt (depth + 1) node ∧ node.id = id

theorem mentions_iff {tree : Tree} {id : DatasetId} :
    tree.Mentions id ↔
      ∃ link ∈ tree.children.links, link.2.id = id ∨ link.2.Mentions id := by
  constructor
  · rintro ⟨depth, node, hnode, hid⟩
    obtain ⟨link, hlink, hnode⟩ := nodeAt_succ.1 hnode
    refine ⟨link, hlink, ?_⟩
    cases depth with
    | zero =>
        rw [nodeAt_zero.1 hnode] at hid
        exact .inl hid
    | succ depth => exact .inr ⟨depth, node, hnode, hid⟩
  · rintro ⟨link, hlink, hid | ⟨depth, node, hnode, hid⟩⟩
    · exact ⟨0, link.2, .under hlink (.root _), hid⟩
    · exact ⟨depth + 1, node, .under hlink hnode, hid⟩

/-- No node has an id that comes again among its own descendants. -/
def NonRepeating (tree : Tree) : Prop :=
  ∀ depth node, tree.NodeAt depth node → ¬ node.Mentions node.id

theorem nonRepeating_iff {tree : Tree} :
    tree.NonRepeating ↔
      ∀ link ∈ tree.children.links,
        ¬(link.2.id = tree.id ∨ link.2.Mentions tree.id) ∧ link.2.NonRepeating := by
  constructor
  · intro hfree link hlink
    refine ⟨fun hid => hfree 0 tree (.root _) (mentions_iff.2 ⟨link, hlink, hid⟩), ?_⟩
    intro depth node hnode
    exact hfree (depth + 1) node (.under hlink hnode)
  · intro hlinks depth node hnode
    cases hnode with
    | root =>
        intro hmentions
        obtain ⟨link, hlink, hid⟩ := mentions_iff.1 hmentions
        exact (hlinks link hlink).1 hid
    | under hlink hnode => exact (hlinks _ hlink).2 _ _ hnode

/-- The groups of every node are in ascending order of their classifiers, as trees hold them. -/
def Ascending (tree : Tree) : Prop :=
  ∀ depth node, tree.NodeAt depth node →
    node.children.groups.Pairwise fun left right => left.1 < right.1

theorem ascending_iff {tree : Tree} :
    tree.Ascending ↔ (tree.children.groups.Pairwise fun left right => left.1 < right.1) ∧
      ∀ link ∈ tree.children.links, link.2.Ascending := by
  constructor
  · intro hascending
    refine ⟨hascending 0 tree (.root tree), fun link hlink depth node hnode => ?_⟩
    exact hascending (depth + 1) node (.under hlink hnode)
  · intro ⟨hgroups, hlinks⟩ depth node hnode
    cases hnode with
    | root => exact hgroups
    | under hlink hnode => exact hlinks _ hlink _ node hnode

/-! ## Listing the ids below a root -/

def childVisited (parent : DatasetId) (found : IdSet) (link : String × Tree) :
    Except LineageError IdSet := do
  let below ← childDatasets link.2
  let here := IdSet.add below link.2.id
  if here.contains parent then throw (.cyclicTree parent)
  pure (found.override here)

theorem listDatasets_eq (parent : DatasetId) (classifier : String) (nodes : List Tree)
    (found : IdSet) :
    listDatasets parent nodes found =
      (nodes.map fun node => (classifier, node)).foldlM (childVisited parent) found := by
  induction nodes generalizing found with
  | nil => rfl
  | cons child rest ih =>
      rw [listDatasets, List.map_cons, List.foldlM_cons, childVisited]
      cases hchild : childDatasets child with
      | error error => rfl
      | ok below =>
          by_cases hparent : (IdSet.add below child.id).contains parent = true
          · simp [hparent, bind, Except.bind, throw, throwThe, MonadExceptOf.throw]
          · simpa [hparent, bind, Except.bind, pure, Except.pure] using ih _

theorem groupsDatasets_eq (parent : DatasetId) (groups : List (String × List Tree))
    (found : IdSet) :
    groupsDatasets parent groups found =
      (Children.links (.populated groups)).foldlM (childVisited parent) found := by
  induction groups generalizing found with
  | nil => rfl
  | cons group rest ih =>
      obtain ⟨classifier, nodes⟩ := group
      rw [groupsDatasets, Children.links, Children.groups, List.flatMap_cons,
        List.foldlM_append, ← listDatasets_eq]
      apply bind_congr
      intro found
      exact ih found

theorem childDatasets_eq (tree : Tree) :
    tree.childDatasets =
      tree.children.links.foldlM (childVisited tree.id) OrderedMap.empty := by
  obtain ⟨direction, id, home, children⟩ := tree
  cases children with
  | unknown => rfl
  | empty => rfl
  | populated groups => exact groupsDatasets_eq id groups OrderedMap.empty

/-- What the listing of the ids below a tree comes to. -/
structure Listed (tree : Tree) : Prop where
  succeeds : tree.NonRepeating → ∃ ids, tree.childDatasets = .ok ids
  nonRepeating : ∀ ids, tree.childDatasets = .ok ids → tree.NonRepeating
  contains_iff : ∀ ids, tree.childDatasets = .ok ids →
    ∀ id, ids.contains id = true ↔ tree.Mentions id

theorem childVisited_eq_ok {parent : DatasetId} {link : String × Tree}
    (hlisted : Listed link.2) {found after : IdSet}
    (hresult : childVisited parent found link = .ok after) :
    ¬(link.2.id = parent ∨ link.2.Mentions parent) ∧ link.2.NonRepeating ∧
      ∀ id, after.contains id = true ↔
        found.contains id = true ∨ link.2.id = id ∨ link.2.Mentions id := by
  rw [childVisited] at hresult
  cases hchild : childDatasets link.2 with
  | error error =>
      rw [hchild] at hresult
      cases hresult
  | ok below =>
      have hhere : ∀ id, (IdSet.add below link.2.id).contains id = true ↔
          link.2.id = id ∨ link.2.Mentions id := by
        intro id
        rw [IdSet.contains_add, hlisted.contains_iff below hchild, or_comm, eq_comm]
      rw [hchild] at hresult
      by_cases hparent : (IdSet.add below link.2.id).contains parent = true
      · simp [hparent, bind, Except.bind, throw, throwThe, MonadExceptOf.throw] at hresult
      · simp only [hparent, bind, Except.bind, pure, Except.pure] at hresult
        cases hresult
        refine ⟨fun hid => hparent ((hhere parent).2 hid), hlisted.nonRepeating below hchild,
          fun id => ?_⟩
        rw [OrderedMap.contains_override, hhere]

theorem childVisited_succeeds {parent : DatasetId} {link : String × Tree}
    (hlisted : Listed link.2) (hparent : ¬(link.2.id = parent ∨ link.2.Mentions parent))
    (hfree : link.2.NonRepeating) (found : IdSet) :
    ∃ after, childVisited parent found link = .ok after := by
  obtain ⟨below, hbelow⟩ := hlisted.succeeds hfree
  have habsent : (IdSet.add below link.2.id).contains parent = false := by
    refine Bool.eq_false_iff.2 fun hmem => hparent ?_
    rw [IdSet.contains_add, hlisted.contains_iff below hbelow] at hmem
    exact hmem.symm.imp_left Eq.symm
  refine ⟨found.override (IdSet.add below link.2.id), ?_⟩
  rw [childVisited, hbelow]
  simp [habsent, bind, Except.bind, pure, Except.pure]

/-- Visiting all children succeeds exactly if each of them can be listed without meeting
the parent. -/
theorem foldlM_childVisited (parent : DatasetId) {links : List (String × Tree)}
    (hlisted : ∀ link ∈ links, Listed link.2) (found : IdSet) :
    ((∀ link ∈ links, ¬(link.2.id = parent ∨ link.2.Mentions parent) ∧
        link.2.NonRepeating) →
      ∃ after, links.foldlM (childVisited parent) found = .ok after) ∧
    ∀ after, links.foldlM (childVisited parent) found = .ok after →
      (∀ link ∈ links, ¬(link.2.id = parent ∨ link.2.Mentions parent) ∧
        link.2.NonRepeating) ∧
      ∀ id, after.contains id = true ↔ found.contains id = true ∨
        ∃ link ∈ links, link.2.id = id ∨ link.2.Mentions id := by
  induction links generalizing found with
  | nil =>
      refine ⟨fun _ => ⟨found, rfl⟩, fun after hresult => ?_⟩
      cases hresult
      simp
  | cons link rest ih =>
      have hlink := hlisted link List.mem_cons_self
      have hrest : ∀ other ∈ rest, Listed other.2 := fun other hother =>
        hlisted other (List.mem_cons_of_mem _ hother)
      rw [List.foldlM_cons]
      constructor
      · intro hgood
        obtain ⟨hparent, hfree⟩ := hgood link List.mem_cons_self
        obtain ⟨middle, hmiddle⟩ := childVisited_succeeds hlink hparent hfree found
        rw [hmiddle]
        exact (ih hrest middle).1 fun other hother =>
          hgood other (List.mem_cons_of_mem _ hother)
      · intro after hresult
        cases hfirst : childVisited parent found link with
        | error error =>
            rw [hfirst] at hresult
            cases hresult
        | ok middle =>
            rw [hfirst] at hresult
            obtain ⟨hparent, hfree, hmiddle⟩ := childVisited_eq_ok hlink hfirst
            obtain ⟨hothers, hafter⟩ := (ih hrest middle).2 after hresult
            refine ⟨?_, fun id => ?_⟩
            · intro other hother
              rcases List.mem_cons.1 hother with rfl | hother
              · exact ⟨hparent, hfree⟩
              · exact hothers other hother
            · rw [hafter, hmiddle]
              simp [or_assoc]

theorem listed (tree : Tree) : Listed tree := by
  induction tree using Tree.induction with
  | node direction id home children ih =>
      have hfold := foldlM_childVisited id ih OrderedMap.empty
      refine ⟨fun hfree => ?_, fun ids hids => ?_, fun ids hids other => ?_⟩
      · rw [childDatasets_eq]
        exact hfold.1 (nonRepeating_iff.1 hfree)
      · rw [childDatasets_eq] at hids
        exact nonRepeating_iff.2 (hfold.2 ids hids).1
      · rw [childDatasets_eq] at hids
        rw [(hfold.2 ids hids).2, mentions_iff]
        simp [OrderedMap.contains, Tree.children]

theorem childVisited_eq_error {parent : DatasetId} {link : String × Tree} {found : IdSet}
    {error : LineageError} (hresult : childVisited parent found link = .error error) :
    link.2.childDatasets = .error error ∨
      (link.2.id = parent ∨ link.2.Mentions parent) ∧ error = .cyclicTree parent := by
  rw [childVisited] at hresult
  cases hbelow : link.2.childDatasets with
  | error failure =>
      rw [hbelow] at hresult
      cases hresult
      exact .inl rfl
  | ok below =>
      rw [hbelow] at hresult
      by_cases hagain : (IdSet.add below link.2.id).contains parent = true
      · simp only [bind, Except.bind, hagain] at hresult
        cases hresult
        rw [IdSet.contains_add, (listed link.2).contains_iff below hbelow] at hagain
        exact .inr ⟨hagain.symm.imp_left Eq.symm, rfl⟩
      · simp [bind, Except.bind, hagain, pure, Except.pure] at hresult

/-- If the ids below a root cannot be listed, the error names a node that comes again among its
own descendants. -/
theorem exists_repeating_of_childDatasets {tree : Tree} {error : LineageError}
    (hresult : tree.childDatasets = .error error) :
    ∃ depth node, tree.NodeAt depth node ∧ node.Mentions node.id ∧
      error = .cyclicTree node.id := by
  induction tree using Tree.induction with
  | node direction id home children ih =>
      rw [childDatasets_eq] at hresult
      obtain ⟨link, hlink, _, hstep⟩ := exists_of_foldlM_error hresult
      rcases childVisited_eq_error hstep with hbelow | ⟨hagain, herror⟩
      · obtain ⟨depth, node, hnode, hrepeats⟩ := ih link hlink hbelow
        exact ⟨depth + 1, node, .under hlink hnode, hrepeats⟩
      · exact ⟨0, _, .root _, mentions_iff.2 ⟨link, hlink, hagain⟩, herror⟩

/-- The ids below a root cannot be listed only because a node comes again below itself. -/
theorem childDatasets_eq_error {tree : Tree} {error : LineageError}
    (hresult : tree.childDatasets = .error error) : ∃ root, error = .cyclicTree root := by
  obtain ⟨_, node, _, _, herror⟩ := exists_repeating_of_childDatasets hresult
  exact ⟨node.id, herror⟩

/-- The ids below a root can be listed exactly if no node comes again among its own
descendants. -/
theorem childDatasets_succeeds_iff {tree : Tree} :
    (∃ ids, tree.childDatasets = .ok ids) ↔ tree.NonRepeating :=
  ⟨fun ⟨ids, hids⟩ => (listed tree).nonRepeating ids hids, (listed tree).succeeds⟩

instance (tree : Tree) : Decidable tree.NonRepeating :=
  decidable_of_iff _ (isOk_iff.trans childDatasets_succeeds_iff)

end Tree

end DatasetLineage
