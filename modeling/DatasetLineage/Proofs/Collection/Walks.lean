import DatasetLineage.Proofs.Collection.Detail
import DatasetLineage.Proofs.Collection.Exploration
import DatasetLineage.Proofs.Collection.Snapshot
import DatasetLineage.Proofs.Tree.Levels

/-!
# Extraction down to some levels

A tree that is extracted down to some levels is the whole tree cut off there: the dataset at a
cut is unexplored if the whole tree shows children of it, and it is a leaf if there are none.
The levels are counted down on the way, and never below zero.  In the whole tree there is one
node for every walk from the root.
-/

namespace DatasetLineage

/-- The datasets that are visited one after the other on some steps in a direction. -/
structure Walk (edges : Set Edge) (direction : Direction) (root : DatasetId) (steps : Nat)
    (ids : List DatasetId) : Prop where
  starts : ids.head? = some root
  leads : ids.IsChain (Leads edges direction)
  length : ids.length = steps + 1

section Walks

variable {edges : Set Edge} {direction : Direction} {root : DatasetId} {ids : List DatasetId}

theorem walk_zero : Walk edges direction root 0 ids ↔ ids = [root] := by
  constructor
  · rintro ⟨hstarts, _, hlength⟩
    obtain ⟨id, rfl⟩ := List.length_eq_one_iff.1 hlength
    rw [Option.some.inj hstarts]
  · rintro rfl
    exact ⟨rfl, .singleton root, rfl⟩

/-- A longer walk goes to a child of its root, and on from there. -/
theorem walk_succ {steps : Nat} :
    Walk edges direction root (steps + 1) ids ↔
      ∃ child rest, ids = root :: rest ∧ Leads edges direction root child ∧
        Walk edges direction child steps rest := by
  constructor
  · rintro ⟨hstarts, hleads, hlength⟩
    match ids with
    | [] | [_] => simp at hlength
    | first :: child :: rest =>
        obtain rfl := Option.some.inj hstarts
        obtain ⟨hstep, hrest⟩ := List.isChain_cons_cons.1 hleads
        exact ⟨child, child :: rest, rfl, hstep, rfl, hrest, Nat.succ.inj hlength⟩
  · rintro ⟨child, rest, rfl, hstep, hstarts, hleads, hlength⟩
    obtain ⟨tail, rfl⟩ := List.head?_eq_some_iff.1 hstarts
    exact ⟨rfl, List.isChain_cons_cons.2 ⟨hstep, hleads⟩, congrArg Nat.succ hlength⟩

end Walks

namespace Collection

variable {collection : Collection} {direction : Direction} {root : DatasetId}

/-! ## Cutting off the whole tree -/

/-- A dataset without neighbours is a leaf wherever the tree is cut off. -/
theorem Sound.treeBelow_of_leaf (hsound : Sound collection) {levels : Levels} {id : DatasetId}
    (hleaf : collection.neighbours direction id = []) :
    collection.treeBelow direction levels id = .node direction id (collection.home id) .empty := by
  rw [hsound.treeBelow_eq, unfold, if_neg fun hcut => hcut.2 hleaf, linksBelow, hleaf]
  rfl

theorem Sound.treeBelow_some_zero (hsound : Sound collection) (id : DatasetId) :
    collection.treeBelow direction (some 0) id =
      (collection.treeBelow direction none id).truncate 0 := by
  by_cases hleaf : collection.neighbours direction id = []
  · rw [hsound.treeBelow_of_leaf hleaf, hsound.treeBelow_of_leaf hleaf]
    rfl
  · have hdetail : (collection.treeBelow direction none id).children.hasDetail = true := by
      obtain ⟨next, hnext⟩ := List.exists_mem_of_ne_nil _ hleaf
      exact hsound.hasDetail_treeBelow.2
        ⟨(Option.some_ne_none 0).symm, next.id, hsound.leads_iff.2 ⟨next, hnext, rfl⟩⟩
    have hwhole : collection.treeBelow direction none id =
        .node direction id (collection.home id)
          (collection.treeBelow direction none id).children := by
      rw [hsound.treeBelow_eq]
      rfl
    rw [hsound.treeBelow_eq, unfold, if_pos ⟨rfl, hleaf⟩, hwhole, Tree.truncate,
      Children.hidden_of_hasDetail hdetail]

/-- A tree down to some levels is the whole tree cut off there. -/
theorem Sound.treeBelow_some_eq (hsound : Sound collection) (depth : Nat) (id : DatasetId) :
    collection.treeBelow direction (some depth) id =
      (collection.treeBelow direction none id).truncate depth := by
  induction depth generalizing id with
  | zero => exact hsound.treeBelow_some_zero id
  | succ depth ih =>
      have hnext : Levels.next (some (depth + 1)) = some depth := rfl
      have hbelow : collection.treeBelow direction (some depth) =
          fun id => (collection.treeBelow direction none id).truncate depth := funext ih
      have hlinks : collection.linksBelow direction (collection.treeBelow direction (some depth))
          id = (collection.linksBelow direction (collection.treeBelow direction none) id).map
            fun link => (link.1, link.2.truncate depth) := by
        rw [hbelow, linksBelow, linksBelow, List.map_map]
        rfl
      rw [hsound.treeBelow_eq, hsound.treeBelow_eq none, unfold, unfold, hnext, hlinks,
        grouped_map, ← Children.map_ofGroups, if_neg (by simp), if_neg (by simp)]
      rfl

theorem Sound.isUnknown_treeBelow (hsound : Sound collection) (id : DatasetId) :
    (collection.treeBelow direction none id).children.isUnknown = false := by
  rw [hsound.treeBelow_eq, unfold, if_neg (by simp)]
  exact Children.isUnknown_ofGroups _

theorem Sound.truncate_treeBelow (hsound : Sound collection) {bound : Nat} {id : DatasetId}
    (hheight : (collection.treeBelow direction none id).height ≤ bound) :
    (collection.treeBelow direction none id).truncate bound =
      collection.treeBelow direction none id := by
  apply Tree.truncate_eq_self _ (Tree.height_le_iff_nodeAt.1 hheight)
  intro depth node hnode hdetail hnone
  rw [(hsound.nodeAt_treeBelow hnode).1] at hdetail hnone
  obtain ⟨hlevels, child, hstep⟩ := hsound.hasDetail_treeBelow.1 hdetail
  obtain ⟨next, hnext, _⟩ := hsound.leads_iff.1 hstep
  have hlink := hsound.mem_links_treeBelow.2 ⟨hlevels, next, hnext, rfl⟩
  rw [hnone] at hlink
  exact absurd hlink List.not_mem_nil

/-! ## Counting the levels down -/

/-- The tree below `id` if the levels left one step further down come from `decrease`. -/
def extractFromBy (decrease : Nat → Except LineageError Nat) (collection : Collection)
    (direction : Direction) (enterable : List DatasetId) (levels : Levels) (id : DatasetId) :
    Except LineageError Tree :=
  if id ∈ enterable then
    if levels = some 0 ∧ collection.neighbours direction id ≠ [] then
      .ok (.node direction id (collection.home id) .unknown)
    else
      ((collection.neighbours direction id).foldlM
        (groupNext fun next => do
          let left ← levels.mapM decrease
          extractFromBy decrease collection direction (without enterable id) left next.id)
        []).map fun groups => .node direction id (collection.home id) (.ofGroups groups)
  else .error (.cyclicGraph id)
termination_by enterable.length
decreasing_by exact length_without_lt ‹_›

theorem Levels.mapM_eq_next {decrease : Nat → Except LineageError Nat}
    (hdecrease : ∀ count, decrease (count + 1) = .ok count) {levels : Levels}
    (hlevels : levels ≠ some 0) : levels.mapM decrease = .ok levels.next := by
  match levels with
  | none => rfl
  | some 0 => exact absurd rfl hlevels
  | some (count + 1) =>
      rw [Option.mapM_some, hdecrease]
      rfl

/-- Extraction takes no level away where none is left, so it does not matter what taking one
away would come to there. -/
theorem extractFromBy_eq {decrease : Nat → Except LineageError Nat}
    (hdecrease : ∀ count, decrease (count + 1) = .ok count) (direction : Direction)
    (enterable : List DatasetId) (levels : Levels) (id : DatasetId) :
    extractFromBy decrease collection direction enterable levels id =
      collection.extractFrom direction enterable levels id := by
  induction hlength : enterable.length using Nat.strong_induction_on
    generalizing enterable levels id with
  | _ length ih =>
      rw [extractFromBy, extractFrom]
      by_cases hmem : id ∈ enterable
      · simp only [if_pos hmem]
        by_cases hcut : levels = some 0 ∧ collection.neighbours direction id ≠ []
        · simp only [if_pos hcut]
        · simp only [if_neg hcut]
          by_cases hleaf : collection.neighbours direction id = []
          · rw [hleaf]
            rfl
          · -- There is a neighbour to go to, so at least one level is left.
            have hleft := Levels.mapM_eq_next hdecrease fun hzero => hcut ⟨hzero, hleaf⟩
            have hbelow : ∀ next : Neighbour, (do
                let left ← levels.mapM decrease
                extractFromBy decrease collection direction (without enterable id) left next.id) =
                  collection.extractFrom direction (without enterable id) levels.next next.id := by
              intro next
              rw [hleft]
              exact ih _ (hlength ▸ length_without_lt hmem) _ levels.next next.id rfl
            simp only [hbelow]
            let node := fun groups => Tree.node direction id (collection.home id) (.ofGroups groups)
            split
            · next hfold => exact congrArg (Except.map node) hfold
            · next hfold => exact congrArg (Except.map node) hfold
      · rw [if_neg hmem, if_neg hmem]

/-! ## Nodes and walks -/

theorem Sound.nodup_neighbour_ids (hsound : Sound collection) (direction : Direction)
    (id : DatasetId) : ((collection.neighbours direction id).map Neighbour.id).Nodup := by
  apply (hsound.nodup_neighbours direction id).map_on
  intro left hleft right hright heq
  have hsame := hsound.eq_of_edge_eq (hsound.mem_neighbours.1 hleft)
    (hsound.mem_neighbours.1 hright) (congrArg (direction.edge id) heq)
  cases left
  cases right
  cases heq
  exact congrArg (Neighbour.mk _) (congrArg Relation.classifier hsame)

/-- Siblings in an extracted tree stand for different datasets. -/
theorem Sound.nodup_siblings (hsound : Sound collection) {depth : Nat} {node : Tree}
    (hnode : (collection.treeBelow direction none root).NodeAt depth node) :
    (node.children.links.map fun link => link.2.id).Nodup := by
  have hids : (node.children.links.map fun link => link.2.id) =
      (collection.shown direction node.id).map Neighbour.id := by
    rw [shown, List.map_map, ← show node = collection.treeBelow direction none node.id from
      (hsound.nodeAt_treeBelow hnode).1]
    rfl
  rw [hids, ((hsound.shown_perm node.id).map Neighbour.id).nodup_iff]
  exact hsound.nodup_neighbour_ids direction node.id

/-- A branch of the whole tree is a walk, with the tree of the dataset where it ends. -/
theorem Sound.mem_branches_iff (hsound : Sound collection) {steps : Nat}
    {branch : List DatasetId × Tree} :
    branch ∈ (collection.treeBelow direction none root).branches steps ↔
      Walk collection.edges direction root steps branch.1 ∧
        ∃ target, branch.1.getLast? = some target ∧
          branch.2 = collection.treeBelow direction none target := by
  obtain ⟨ids, node⟩ := branch
  induction steps generalizing root ids with
  | zero =>
      rw [Tree.branches, List.mem_singleton, walk_zero, hsound.id_treeBelow, Prod.mk.injEq]
      constructor
      · rintro ⟨rfl, rfl⟩
        exact ⟨rfl, root, rfl, rfl⟩
      · rintro ⟨rfl, target, htarget, rfl⟩
        cases htarget
        exact ⟨rfl, rfl⟩
  | succ steps ih =>
      simp only [Tree.branches, List.mem_flatMap, List.mem_map, hsound.id_treeBelow, walk_succ]
      constructor
      · rintro ⟨link, hlink, ⟨rest, _⟩, hbelow, hbranch⟩
        obtain ⟨rfl, rfl⟩ := Prod.mk.inj hbranch
        obtain ⟨_, next, hnext, rfl⟩ := hsound.mem_links_treeBelow.1 hlink
        obtain ⟨hwalk, target, htarget, htree⟩ := (ih rest).1 hbelow
        exact ⟨⟨next.id, rest, rfl, hsound.leads_iff.2 ⟨next, hnext, rfl⟩, hwalk⟩, target,
          by simp [List.getLast?_cons, htarget], htree⟩
      · rintro ⟨⟨child, rest, rfl, hstep, hwalk⟩, target, htarget, htree⟩
        obtain ⟨next, hnext, rfl⟩ := hsound.leads_iff.1 hstep
        have hrest : rest.getLast? = some target := by
          obtain ⟨tail, rfl⟩ := List.head?_eq_some_iff.1 hwalk.starts
          rwa [List.getLast?_cons_cons] at htarget
        exact ⟨_, hsound.mem_links_treeBelow.2 ⟨(Option.some_ne_none 0).symm, next, hnext, rfl⟩,
          (rest, node), (ih rest).2 ⟨hwalk, target, hrest, htree⟩, rfl⟩

/-- Every tree can be extracted, and down to some levels it is the whole tree cut off there,
with no level taken away where none is left.  Without a bound, and at the height of the whole
tree or below, nothing is cut off.  In the whole tree every node is explored, the ids can be
listed, and the nodes of a depth are the walks of that length, each with the tree of the dataset
where it ends. -/
theorem Built.extractTreeToDepth_truncates (hbuilt : Built collection) (root : DatasetId)
    (direction : Direction) :
    ∃ tree ids, collection.extractTree root direction = .ok tree ∧
      tree.childDatasets = .ok ids ∧
      (∀ bound, 0 < bound →
        collection.extractTreeToDepth root direction bound = .ok (tree.truncate bound)) ∧
      (∀ bound, bound = 0 ∨ tree.height ≤ bound →
        collection.extractTreeToDepth root direction bound = .ok tree) ∧
      (∀ decrease : Nat → Except LineageError Nat,
        (∀ count, decrease (count + 1) = .ok count) → ∀ bound,
          extractFromBy decrease collection direction (collection.enterable root)
              (.ofBound bound) root =
            collection.extractTreeToDepth root direction bound) ∧
      (∀ depth node, tree.NodeAt depth node → node.children.isUnknown = false) ∧
      ∀ steps, ((tree.branches steps).map Prod.fst).Nodup ∧
        (∀ node, tree.NodeAt steps node ↔ ∃ walked, (walked, node) ∈ tree.branches steps) ∧
        (∀ walked, Walk collection.edges direction root steps walked ↔
          ∃ node, (walked, node) ∈ tree.branches steps) ∧
        ∀ branch ∈ tree.branches steps, ∃ target, branch.1.getLast? = some target ∧
          collection.extractTree target direction = .ok branch.2 := by
  have hsound := hbuilt.sound
  have htruncated : ∀ bound, 0 < bound → collection.extractTreeToDepth root direction bound =
      .ok ((collection.treeBelow direction none root).truncate bound) := by
    intro bound hbound
    rw [hsound.extractTreeToDepth_eq, Levels.ofBound, if_neg hbound.ne', hsound.treeBelow_some_eq]
  have hnonRepeating : (collection.treeBelow direction none root).NonRepeating :=
    hsound.nonRepeating_treeBelow
  obtain ⟨ids, hids⟩ := Tree.childDatasets_succeeds_iff.2 hnonRepeating
  refine ⟨_, ids, hsound.extractTree_eq root, hids, htruncated, ?whole, ?levels, ?explored,
    fun steps => ⟨?distinct, fun _ => Tree.nodeAt_iff_exists_branch, ?walks, ?trees⟩⟩
  case whole =>
    intro bound hbound
    rcases Nat.eq_zero_or_pos bound with rfl | hpos
    · exact hsound.extractTreeToDepth_eq root direction 0
    · have hheight := hbound.resolve_left hpos.ne'
      rw [htruncated bound hpos, hsound.truncate_treeBelow hheight]
  case levels =>
    intro decrease hdecrease bound
    exact extractFromBy_eq hdecrease direction _ _ root
  case explored =>
    intro depth node hnode
    rw [(hsound.nodeAt_treeBelow hnode).1]
    exact hsound.isUnknown_treeBelow node.id
  case distinct => exact Tree.nodup_branches fun depth node => hsound.nodup_siblings
  case walks =>
    intro walked
    simp only [hsound.mem_branches_iff]
    constructor
    · intro hwalk
      obtain ⟨rest, rfl⟩ := List.head?_eq_some_iff.1 hwalk.starts
      exact ⟨_, hwalk, _, List.getLast?_cons, rfl⟩
    · rintro ⟨_, hwalk, _⟩
      exact hwalk
  case trees =>
    intro branch hbranch
    obtain ⟨_, target, htarget, htree⟩ := hsound.mem_branches_iff.1 hbranch
    rw [htree]
    exact ⟨target, htarget, hsound.extractTree_eq target⟩

/-- A diamond cut off after its first level.  The whole tree shows its last dataset twice, once
for each way round, and it makes no difference if taking a level away from none is an error. -/
theorem extractTreeToDepth_truncates_of_diamond :
    ∃ (collection : Collection) (tree left right : Tree), Built collection ∧
      collection.relations = [⟨"nbar", .numbered 1, .numbered 2⟩,
        ⟨"nbar", .numbered 1, .numbered 3⟩, ⟨"bias", .numbered 2, .numbered 4⟩,
        ⟨"bias", .numbered 3, .numbered 4⟩] ∧
      collection.extractTreeToDepth (.numbered 1) .derived 1 = .ok (tree.truncate 1) ∧
      extractFromBy (fun count => if count = 0 then .error (.cyclicGraph (.numbered 1))
          else .ok (count - 1)) collection .derived (collection.enterable (.numbered 1))
          (.ofBound 1) (.numbered 1) =
        collection.extractTreeToDepth (.numbered 1) .derived 1 ∧
      ([.numbered 1, .numbered 2, .numbered 4], left) ∈ tree.branches 2 ∧
      ([.numbered 1, .numbered 3, .numbered 4], right) ∈ tree.branches 2 := by
  obtain ⟨collection, hbuilt, hrelations⟩ := @exists_built_of_ascending
    [⟨"nbar", .numbered 1, .numbered 2⟩, ⟨"nbar", .numbered 1, .numbered 3⟩,
      ⟨"bias", .numbered 2, .numbered 4⟩, ⟨"bias", .numbered 3, .numbered 4⟩]
    (by decide) (by decide)
  have hleads : ∀ relation ∈ collection.relations,
      Leads collection.edges .derived relation.source relation.derived :=
    fun relation hrelation => Relation.edge_mem_edgesOf hrelation
  simp only [hrelations, List.forall_mem_cons] at hleads
  obtain ⟨hleft, hright, hfromLeft, hfromRight, _⟩ := hleads
  obtain ⟨tree, ids, _, _, htruncated, _, hlevels, _, hbranches⟩ :=
    hbuilt.extractTreeToDepth_truncates (.numbered 1) .derived
  obtain ⟨_, _, hwalks, _⟩ := hbranches 2
  have hleftWalk : Walk collection.edges .derived (.numbered 1) 2
      [.numbered 1, .numbered 2, .numbered 4] :=
    ⟨rfl, .cons_cons hleft (.cons_cons hfromLeft (.singleton _)), rfl⟩
  have hrightWalk : Walk collection.edges .derived (.numbered 1) 2
      [.numbered 1, .numbered 3, .numbered 4] :=
    ⟨rfl, .cons_cons hright (.cons_cons hfromRight (.singleton _)), rfl⟩
  obtain ⟨left, hleftBranch⟩ := (hwalks _).1 hleftWalk
  obtain ⟨right, hrightBranch⟩ := (hwalks _).1 hrightWalk
  exact ⟨collection, tree, left, right, hbuilt, hrelations, htruncated 1 Nat.one_pos,
    hlevels _ (fun _ => rfl) 1, hleftBranch, hrightBranch⟩

end Collection

end DatasetLineage
