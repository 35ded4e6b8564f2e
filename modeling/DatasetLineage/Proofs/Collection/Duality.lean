import DatasetLineage.Proofs.Collection.Walks

/-!
# Paths seen from both ends

The tree of a dataset has a node for every path that starts there, and the edges on the way to
the node are those of the path.  The tree of what was derived from one dataset and the tree of
the sources of another one so show the paths between the two from both ends, and the way to a
node in one of them is the way to a node in the other one, backwards.  The trees go by different
indices of neighbours and branch at different datasets.
-/

namespace DatasetLineage

def Direction.relation (direction : Direction) (parent : DatasetId) (classifier : String)
    (child : DatasetId) : Relation :=
  (direction.edge parent child).relation classifier

/-! ## Ways to the nodes of a tree -/

namespace Tree

variable {α β : Type} {step : DatasetId → String → DatasetId → α}

def prepend (first : α) (way : List α × DatasetId) : List α × DatasetId :=
  (first :: way.1, way.2)

mutual

/-- The nodes of a tree in pre-order, each with its id and with what `step` makes of the edges on
the way to it from the root.  Of an edge it is given the parent, the classifier and the child. -/
def ways (step : DatasetId → String → DatasetId → α) : Tree → List (List α × DatasetId)
  | .node _ id _ (.populated groups) => ([], id) :: groupsWays step id groups
  | .node _ id _ _ => [([], id)]

def groupsWays (step : DatasetId → String → DatasetId → α) (parent : DatasetId) :
    List (String × List Tree) → List (List α × DatasetId)
  | [] => []
  | (classifier, nodes) :: rest =>
      listWays step parent classifier nodes ++ groupsWays step parent rest

def listWays (step : DatasetId → String → DatasetId → α) (parent : DatasetId)
    (classifier : String) : List Tree → List (List α × DatasetId)
  | [] => []
  | child :: rest =>
      (child.ways step).map (prepend (step parent classifier child.id)) ++
        listWays step parent classifier rest

end

def waysTo (step : DatasetId → String → DatasetId → α) (id : DatasetId) (tree : Tree) :
    List (List α) :=
  ((tree.ways step).filter fun way => way.2 = id).map Prod.fst

def classifiersTo (id : DatasetId) (tree : Tree) : List (List String) :=
  tree.waysTo (fun _ classifier _ => classifier) id

theorem listWays_eq (parent : DatasetId) (classifier : String) (nodes : List Tree) :
    listWays step parent classifier nodes =
      (nodes.map fun node => (classifier, node)).flatMap fun link =>
        (link.2.ways step).map (prepend (step parent link.1 link.2.id)) := by
  induction nodes with
  | nil => rfl
  | cons child rest ih => rw [listWays, ih, List.map_cons, List.flatMap_cons]

theorem groupsWays_eq (parent : DatasetId) (groups : List (String × List Tree)) :
    groupsWays step parent groups =
      (ungrouped groups).flatMap fun link =>
        (link.2.ways step).map (prepend (step parent link.1 link.2.id)) := by
  induction groups with
  | nil => rfl
  | cons group rest ih =>
      rw [groupsWays, ih, listWays_eq, ungrouped_cons, List.flatMap_append]

/-- The ways from a node: none to itself, and first to a child and on from there. -/
theorem ways_eq (tree : Tree) :
    tree.ways step = ([], tree.id) :: tree.children.links.flatMap fun link =>
      (link.2.ways step).map (prepend (step tree.id link.1 link.2.id)) := by
  obtain ⟨direction, id, home, children⟩ := tree
  cases children with
  | unknown => rfl
  | empty => rfl
  | populated groups => exact congrArg (List.cons ([], id)) (groupsWays_eq id groups)

theorem mem_ways_nil {tree : Tree} {target : DatasetId} :
    ([], target) ∈ tree.ways step ↔ target = tree.id := by
  rw [ways_eq]
  simp [prepend]

theorem mem_ways_cons {tree : Tree} {first : α} {rest : List α} {target : DatasetId} :
    (first :: rest, target) ∈ tree.ways step ↔
      ∃ link ∈ tree.children.links, step tree.id link.1 link.2.id = first ∧
        (rest, target) ∈ link.2.ways step := by
  rw [ways_eq]
  simp only [List.mem_cons, Prod.mk.injEq, reduceCtorEq, false_and, false_or, List.mem_flatMap,
    List.mem_map, prepend, List.cons.injEq]
  constructor
  · rintro ⟨link, hlink, ⟨_, _⟩, hway, ⟨rfl, rfl⟩, rfl⟩
    exact ⟨link, hlink, rfl, hway⟩
  · rintro ⟨link, hlink, rfl, hway⟩
    exact ⟨link, hlink, (rest, target), hway, ⟨rfl, rfl⟩, rfl⟩

theorem mem_waysTo {tree : Tree} {id : DatasetId} {way : List α} :
    way ∈ tree.waysTo step id ↔ (way, id) ∈ tree.ways step := by
  simp [waysTo]

/-- What is made of the edges can be made of what was made of them before. -/
theorem ways_map (image : α → β) (tree : Tree) :
    tree.ways (fun parent classifier child => image (step parent classifier child)) =
      (tree.ways step).map fun way => (way.1.map image, way.2) := by
  induction tree using Tree.induction with
  | node direction id home children ih =>
      rw [ways_eq, ways_eq, List.map_cons, List.map_flatMap]
      refine congrArg (List.cons ([], id)) (List.flatMap_congr fun link hlink => ?_)
      rw [ih link hlink, List.map_map, List.map_map]
      rfl

theorem waysTo_map (image : α → β) (id : DatasetId) (tree : Tree) :
    tree.waysTo (fun parent classifier child => image (step parent classifier child)) id =
      (tree.waysTo step id).map (List.map image) := by
  rw [waysTo, waysTo, ways_map, List.filter_map, List.map_map, List.map_map]
  rfl

/-- No way comes twice if siblings differ and a step tells to which one it goes. -/
theorem nodup_ways {tree : Tree}
    (hstep : ∀ {parent classifier child other sibling},
      step parent classifier child = step parent other sibling → child = sibling)
    (hsiblings : ∀ depth node, tree.NodeAt depth node →
      (node.children.links.map fun link => link.2.id).Nodup) : (tree.ways step).Nodup := by
  induction tree using Tree.induction with
  | node direction id home children ih =>
      have hlinks := hsiblings 0 _ (.root _)
      rw [List.Nodup, List.pairwise_map] at hlinks
      rw [ways_eq, List.nodup_cons, List.nodup_flatMap]
      refine ⟨?_, ?_, ?_⟩
      · simp [prepend]
      · intro link hlink
        apply (ih link hlink fun depth node hnode => hsiblings (depth + 1) node
          (.under hlink hnode)).map
        rintro ⟨_, _⟩ ⟨_, _⟩ heq
        cases heq
        rfl
      · refine hlinks.imp fun {left right} hids => ?_
        simp only [Function.onFun, List.Disjoint, List.mem_map]
        rintro _ ⟨first, _, rfl⟩ ⟨second, _, heq⟩
        exact hids (hstep (List.cons.inj (congrArg Prod.fst heq)).1).symm

theorem nodup_waysTo {tree : Tree} (hways : (tree.ways step).Nodup) (id : DatasetId) :
    (tree.waysTo step id).Nodup := by
  apply (hways.filter _).map_on
  intro left hleft right hright hsame
  have hid : left.2 = right.2 := by simp_all
  exact Prod.ext hsame hid

end Tree

/-! ## Paths and their reversals -/

/-- Relations that lead one after the other from a dataset to another one, in a direction. -/
inductive Route (relations : List Relation) (direction : Direction) :
    DatasetId → DatasetId → List Relation → Prop
  | nil (id : DatasetId) : Route relations direction id id []
  | cons {parent child target : DatasetId} {classifier : String} {rest : List Relation} :
      direction.relation parent classifier child ∈ relations →
        Route relations direction child target rest →
          Route relations direction parent target
            (direction.relation parent classifier child :: rest)

section Routes

variable {relations : List Relation} {direction : Direction} {origin target : DatasetId}
  {path : List Relation}

theorem Direction.relation_opposite (direction : Direction) (parent : DatasetId)
    (classifier : String) (child : DatasetId) :
    direction.opposite.relation child classifier parent =
      direction.relation parent classifier child := by
  rw [Direction.relation, Direction.relation, Direction.edge_opposite]

/-- A path goes on by one more step at its end. -/
theorem Route.concat {child : DatasetId} {classifier : String}
    (hpath : Route relations direction origin target path)
    (hstep : direction.relation target classifier child ∈ relations) :
    Route relations direction origin child
      (path ++ [direction.relation target classifier child]) := by
  induction hpath with
  | nil id => exact .cons hstep (.nil child)
  | cons hfirst _ ih => exact .cons hfirst (ih hstep)

/-- A path backwards is a path in the other direction. -/
theorem Route.reverse (hpath : Route relations direction origin target path) :
    Route relations direction.opposite target origin path.reverse := by
  induction hpath with
  | nil id => exact .nil id
  | @cons parent child target classifier rest hstep _ ih =>
      rw [← direction.relation_opposite] at hstep ⊢
      rw [List.reverse_cons]
      exact ih.concat hstep

theorem route_reverse_iff :
    Route relations direction.opposite target origin path.reverse ↔
      Route relations direction origin target path := by
  refine ⟨fun hpath => ?_, Route.reverse⟩
  have hback := hpath.reverse
  rwa [List.reverse_reverse, Direction.opposite_opposite] at hback

end Routes

namespace Collection

variable {collection : Collection} {direction : Direction} {root : DatasetId}

/-- A whole tree has one node for every path from its root. -/
theorem Sound.mem_ways_treeBelow (hsound : Sound collection) {path : List Relation}
    {target : DatasetId} :
    (path, target) ∈ (collection.treeBelow direction none root).ways direction.relation ↔
      Route collection.relations direction root target path := by
  induction path generalizing root with
  | nil =>
      rw [Tree.mem_ways_nil, hsound.id_treeBelow]
      constructor
      · rintro rfl
        exact .nil target
      · rintro ⟨⟩
        rfl
  | cons first rest ih =>
      rw [Tree.mem_ways_cons, hsound.id_treeBelow]
      constructor
      · rintro ⟨link, hlink, rfl, hway⟩
        obtain ⟨_, next, hnext, rfl⟩ := hsound.mem_links_treeBelow.1 hlink
        rw [hsound.id_treeBelow]
        exact .cons (hsound.mem_neighbours.1 hnext) (ih.1 hway)
      · intro hpath
        cases hpath with
        | @cons _ child _ classifier _ hstep hrest =>
            have hnext : ⟨child, classifier⟩ ∈ collection.neighbours direction root :=
              hsound.mem_neighbours.2 hstep
            refine ⟨_, hsound.mem_links_treeBelow.2
              ⟨(Option.some_ne_none 0).symm, _, hnext, rfl⟩, ?_, ih.2 hrest⟩
            rw [hsound.id_treeBelow]

theorem Sound.nodup_ways_treeBelow (hsound : Sound collection) :
    ((collection.treeBelow direction none root).ways direction.relation).Nodup := by
  apply Tree.nodup_ways
  · intro parent classifier child other sibling hsame
    exact (Direction.edge_injective (congrArg Relation.edge hsame)).2
  · exact fun depth node => hsound.nodup_siblings

/-- The classifiers on the ways to a node are those of the paths. -/
theorem classifiersTo_eq (direction : Direction) (tree : Tree) (id : DatasetId) :
    tree.classifiersTo id =
      (tree.waysTo direction.relation id).map (List.map Relation.classifier) :=
  @Tree.waysTo_map _ _ direction.relation Relation.classifier id tree

/-- The paths between two datasets are seen backwards from the other end. -/
theorem Sound.waysTo_reversed (hsound : Sound collection) (origin target : DatasetId) :
    ((collection.treeBelow .sources none target).waysTo Direction.sources.relation origin).Perm
      (((collection.treeBelow .derived none origin).waysTo Direction.derived.relation target).map
        List.reverse) := by
  rw [List.perm_ext_iff_of_nodup (Tree.nodup_waysTo hsound.nodup_ways_treeBelow origin)
    ((Tree.nodup_waysTo hsound.nodup_ways_treeBelow target).map List.reverse_injective)]
  intro path
  rw [List.mem_map_of_involutive List.reverse_involutive, Tree.mem_waysTo, Tree.mem_waysTo,
    hsound.mem_ways_treeBelow, hsound.mem_ways_treeBelow, ← route_reverse_iff]
  rfl

/-- The two trees of a pair of datasets are dual to each other.  What was derived from `origin`
and the sources of `target` can both be extracted.  The first tree shows `target`, and the second
one `origin`, once for every path between the two.  The classifiers on the ways there are those
of the paths, read from `origin` in the first tree and backwards in the second one. -/
theorem Built.extractTree_dual (hbuilt : Built collection) (origin target : DatasetId) :
    ∃ (derivedTree sourceTree : Tree) (paths : List (List Relation)),
      collection.extractTree origin .derived = .ok derivedTree ∧
      collection.extractTree target .sources = .ok sourceTree ∧
      paths.Nodup ∧
      (∀ path, path ∈ paths ↔ Route collection.relations .derived origin target path) ∧
      (derivedTree.classifiersTo target).length = paths.length ∧
      (sourceTree.classifiersTo origin).length = paths.length ∧
      (derivedTree.classifiersTo target).Perm (paths.map (List.map Relation.classifier)) ∧
      (sourceTree.classifiersTo origin).Perm
        ((derivedTree.classifiersTo target).map List.reverse) := by
  have hsound := hbuilt.sound
  have hreversed := hsound.waysTo_reversed origin target
  refine ⟨_, _,
    (collection.treeBelow .derived none origin).waysTo Direction.derived.relation target,
    hsound.extractTree_eq origin, hsound.extractTree_eq target,
    Tree.nodup_waysTo hsound.nodup_ways_treeBelow target, ?_, ?_, ?_, ?_, ?_⟩
  · intro path
    rw [Tree.mem_waysTo, hsound.mem_ways_treeBelow]
  · rw [classifiersTo_eq .derived, List.length_map]
  · rw [classifiersTo_eq .sources, List.length_map, hreversed.length_eq, List.length_map]
  · rw [classifiersTo_eq .derived]
  · rw [classifiersTo_eq .sources, classifiersTo_eq .derived, List.map_map]
    refine (hreversed.map _).trans (.of_eq ?_)
    rw [List.map_map]
    exact List.map_congr_left fun path _ => List.map_reverse

/-- In a diamond the last dataset is shown once for each way round, and so is the first one. -/
theorem extractTree_dual_of_diamond :
    ∃ (collection : Collection) (derivedTree sourceTree : Tree), Built collection ∧
      collection.relations = [⟨"nbar", .numbered 1, .numbered 2⟩,
        ⟨"flat", .numbered 1, .numbered 3⟩, ⟨"bias", .numbered 2, .numbered 4⟩,
        ⟨"dark", .numbered 3, .numbered 4⟩] ∧
      collection.extractTree (.numbered 1) .derived = .ok derivedTree ∧
      collection.extractTree (.numbered 4) .sources = .ok sourceTree ∧
      ["nbar", "bias"] ∈ derivedTree.classifiersTo (.numbered 4) ∧
      ["bias", "nbar"] ∈ sourceTree.classifiersTo (.numbered 1) ∧
      ["flat", "dark"] ∈ derivedTree.classifiersTo (.numbered 4) ∧
      ["dark", "flat"] ∈ sourceTree.classifiersTo (.numbered 1) := by
  obtain ⟨collection, hbuilt, hrelations⟩ := @exists_built_of_ascending
    [⟨"nbar", .numbered 1, .numbered 2⟩, ⟨"flat", .numbered 1, .numbered 3⟩,
      ⟨"bias", .numbered 2, .numbered 4⟩, ⟨"dark", .numbered 3, .numbered 4⟩]
    (by decide) (by decide)
  obtain ⟨derivedTree, sourceTree, paths, hderived, hsources, _, hpaths, _, _, hforwards,
    hbackwards⟩ := hbuilt.extractTree_dual (.numbered 1) (.numbered 4)
  rw [hrelations] at hpaths
  have hfirst := (hpaths [⟨"nbar", .numbered 1, .numbered 2⟩,
    ⟨"bias", .numbered 2, .numbered 4⟩]).2 (.cons (by decide) (.cons (by decide) (.nil _)))
  have hsecond := (hpaths [⟨"flat", .numbered 1, .numbered 3⟩,
    ⟨"dark", .numbered 3, .numbered 4⟩]).2 (.cons (by decide) (.cons (by decide) (.nil _)))
  have hleft := hforwards.mem_iff.2 (List.mem_map_of_mem hfirst)
  have hright := hforwards.mem_iff.2 (List.mem_map_of_mem hsecond)
  exact ⟨collection, derivedTree, sourceTree, hbuilt, hrelations, hderived, hsources, hleft,
    hbackwards.mem_iff.2 (List.mem_map_of_mem hleft), hright,
    hbackwards.mem_iff.2 (List.mem_map_of_mem hright)⟩

end Collection

end DatasetLineage
