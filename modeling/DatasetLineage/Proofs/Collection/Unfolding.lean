import DatasetLineage.Collection.Extract
import DatasetLineage.Proofs.Collection.Sound
import DatasetLineage.Proofs.Depth
import DatasetLineage.Proofs.Tree.Groups
import DatasetLineage.Proofs.Tree.Nodes

/-!
# Trees of a sound collection

Without a cycle every dataset has a tree, and the tree below a dataset is the same
whatever path has led to it: the datasets a path may still enter include all that can be
reached.  So extraction unfolds the lineage by one equation, and a node of an extracted
tree stands for a dataset that can be reached, with the tree of that dataset below it.
-/

namespace DatasetLineage

namespace Collection

variable {collection : Collection} {direction : Direction}

/-- The tree below a dataset down to some levels; the placeholder of a dataset that has
no tree is of no account. -/
def treeBelow (collection : Collection) (direction : Direction) (levels : Levels)
    (id : DatasetId) : Tree :=
  match collection.extractFrom direction (collection.enterable id) levels id with
  | .ok tree => tree
  | .error _ => .placeholder id direction

def linksBelow (collection : Collection) (direction : Direction)
    (below : DatasetId → Tree) (id : DatasetId) : List (String × Tree) :=
  (collection.neighbours direction id).map fun next => (next.classifier, below next.id)

def unfold (collection : Collection) (direction : Direction) (levels : Levels)
    (below : DatasetId → Tree) (id : DatasetId) : Tree :=
  .node direction id (collection.home id) <|
    if levels = some 0 ∧ collection.neighbours direction id ≠ [] then .unknown
    else .ofGroups (grouped (collection.linksBelow direction below id))

/-- All that can be reached from a dataset may be entered. -/
def Enterable (collection : Collection) (direction : Direction) (enterable : List DatasetId)
    (id : DatasetId) : Prop :=
  ∀ target, Reaches collection.edges direction id target → target ∈ enterable

theorem enterable_root (hlockstep : Lockstep collection) (direction : Direction)
    (root : DatasetId) :
    collection.Enterable direction (collection.enterable root) root := by
  intro target hpath
  rcases Relation.ReflTransGen.cases_tail hpath with heq | ⟨parent, _, hstep⟩
  · rw [heq]
    exact List.mem_cons_self
  · apply mem_enterable_of_contains
    exact (hlockstep.contains_of_leads direction hstep).2

theorem Sound.enterable_without (hsound : Sound collection) {enterable : List DatasetId}
    {id child : DatasetId} (henterable : collection.Enterable direction enterable id)
    (hstep : Leads collection.edges direction id child) :
    collection.Enterable direction (without enterable id) child := by
  intro target hpath
  rw [mem_without]
  refine ⟨henterable target (.head hstep hpath), ?_⟩
  rintro rfl
  exact hsound.acyclic.not_below direction _ (Relation.TransGen.head' hstep hpath)

/-- Extracting the children one after the other. -/
theorem foldlM_extractFrom {enterable : List DatasetId} {levels : Levels}
    {below : DatasetId → Tree} {neighbours : List Neighbour}
    (hbelow : ∀ next ∈ neighbours,
      collection.extractFrom direction enterable levels next.id = .ok (below next.id))
    (groups : List (String × List Tree)) :
    neighbours.foldlM (fun groups next => do
        let below ← collection.extractFrom direction enterable levels next.id
        pure (addToGroup next.classifier below groups)) groups =
      .ok ((neighbours.map fun next => (next.classifier, below next.id)).foldl
        (fun groups link => addToGroup link.1 link.2 groups) groups) := by
  induction neighbours generalizing groups with
  | nil => rfl
  | cons next rest ih =>
      rw [List.foldlM_cons, hbelow next List.mem_cons_self]
      exact ih (fun other hother => hbelow other (List.mem_cons_of_mem _ hother)) _

theorem extractFrom_eq {enterable : List DatasetId} {levels : Levels} {id : DatasetId}
    {below : DatasetId → Tree} (hmem : id ∈ enterable)
    (hbelow : ∀ next ∈ collection.neighbours direction id,
      collection.extractFrom direction (without enterable id) levels.next next.id =
        .ok (below next.id)) :
    collection.extractFrom direction enterable levels id =
      .ok (collection.unfold direction levels below id) := by
  rw [extractFrom, if_pos hmem, unfold]
  by_cases hcut : levels = some 0 ∧ collection.neighbours direction id ≠ []
  · simp only [if_pos hcut]
  · simp only [if_neg hcut, foldlM_extractFrom hbelow]
    rfl

theorem Sound.extractFrom_eq_treeBelow (hsound : Sound collection) (id : DatasetId) :
    ∀ levels enterable, collection.Enterable direction enterable id →
      collection.extractFrom direction enterable levels id =
        .ok (collection.treeBelow direction levels id) := by
  have hdescent := hsound.acyclic.wellFounded direction
  induction id using hdescent.induction with
  | _ id ih =>
      have hextract : ∀ levels enterable, collection.Enterable direction enterable id →
          collection.extractFrom direction enterable levels id =
            .ok (collection.unfold direction levels
              (collection.treeBelow direction levels.next) id) := by
        intro levels enterable henterable
        apply extractFrom_eq (henterable id .refl)
        intro next hnext
        have hstep := hsound.leads_iff.2 ⟨next, hnext, rfl⟩
        exact ih next.id hstep levels.next _ (hsound.enterable_without henterable hstep)
      intro levels enterable henterable
      have hroot := hextract levels _ (enterable_root hsound.toLockstep direction id)
      rw [hextract levels enterable henterable, treeBelow, hroot]

/-- The tree below a dataset is the dataset over the trees below its neighbours. -/
theorem Sound.treeBelow_eq (hsound : Sound collection) (levels : Levels) (id : DatasetId) :
    collection.treeBelow direction levels id =
      collection.unfold direction levels (collection.treeBelow direction levels.next) id := by
  have henterable := enterable_root hsound.toLockstep direction id
  have hunfold : collection.extractFrom direction (collection.enterable id) levels id =
      .ok (collection.unfold direction levels (collection.treeBelow direction levels.next) id) := by
    apply extractFrom_eq (henterable id .refl)
    intro next hnext
    have hstep := hsound.leads_iff.2 ⟨next, hnext, rfl⟩
    exact hsound.extractFrom_eq_treeBelow next.id _ _
      (hsound.enterable_without henterable hstep)
  rw [hsound.extractFrom_eq_treeBelow id levels _ henterable] at hunfold
  exact Except.ok.inj hunfold

/-- Two trees are the same if their roots have the same home and the same neighbours in the
same order, both of them are cut off there or neither, and the trees of the neighbours are
the same. -/
theorem Sound.treeBelow_congr (hsound : Sound collection) {other : Collection}
    (hother : Sound other) {levels otherLevels : Levels} {id : DatasetId}
    (hhome : collection.home id = other.home id)
    (hneighbours : collection.neighbours direction id = other.neighbours direction id)
    (hcut : other.neighbours direction id ≠ [] → (levels = some 0 ↔ otherLevels = some 0))
    (hbelow : ∀ next ∈ other.neighbours direction id,
      collection.treeBelow direction levels.next next.id =
        other.treeBelow direction otherLevels.next next.id) :
    collection.treeBelow direction levels id = other.treeBelow direction otherLevels id := by
  have hlinks : collection.linksBelow direction (collection.treeBelow direction levels.next) id =
      other.linksBelow direction (other.treeBelow direction otherLevels.next) id := by
    rw [linksBelow, linksBelow, hneighbours]
    exact List.map_congr_left fun next hnext => congrArg _ (hbelow next hnext)
  have hcuts : levels = some 0 ∧ other.neighbours direction id ≠ [] ↔
      otherLevels = some 0 ∧ other.neighbours direction id ≠ [] :=
    and_congr_left hcut
  rw [hsound.treeBelow_eq, hother.treeBelow_eq, unfold, unfold, hlinks, hhome, hneighbours]
  simp only [hcuts]

theorem Sound.extractTree_eq (hsound : Sound collection) (root : DatasetId) :
    collection.extractTree root direction = .ok (collection.treeBelow direction none root) :=
  hsound.extractFrom_eq_treeBelow root none _ (enterable_root hsound.toLockstep direction root)

theorem Sound.extractTreeToDepth_eq (hsound : Sound collection) (root : DatasetId)
    (direction : Direction) (bound : Nat) :
    collection.extractTreeToDepth root direction bound =
      .ok (collection.treeBelow direction (.ofBound bound) root) :=
  hsound.extractFrom_eq_treeBelow root _ _ (enterable_root hsound.toLockstep direction root)

/-! ## The nodes of an extracted tree -/

section Nodes

variable {levels : Levels} {id : DatasetId}

@[simp]
theorem Sound.id_treeBelow (hsound : Sound collection) :
    (collection.treeBelow direction levels id).id = id := by
  rw [hsound.treeBelow_eq]
  rfl

@[simp]
theorem Sound.direction_treeBelow (hsound : Sound collection) :
    (collection.treeBelow direction levels id).direction = direction := by
  rw [hsound.treeBelow_eq]
  rfl

@[simp]
theorem Sound.home_treeBelow (hsound : Sound collection) :
    (collection.treeBelow direction levels id).home = collection.home id := by
  rw [hsound.treeBelow_eq]
  rfl

/-- Above the cut the links of a node are those of its dataset, group by group. -/
theorem Sound.links_treeBelow (hsound : Sound collection) (hlevels : levels ≠ some 0) :
    (collection.treeBelow direction levels id).children.links =
      ungrouped (grouped (collection.linksBelow direction
        (collection.treeBelow direction levels.next) id)) := by
  rw [hsound.treeBelow_eq, unfold, if_neg fun hcut => hlevels hcut.1]
  exact Children.links_ofGroups _

theorem Sound.mem_links_treeBelow (hsound : Sound collection) {link : String × Tree} :
    link ∈ (collection.treeBelow direction levels id).children.links ↔
      levels ≠ some 0 ∧ ∃ next ∈ collection.neighbours direction id,
        (next.classifier, collection.treeBelow direction levels.next next.id) = link := by
  by_cases hlevels : levels = some 0
  · have hnone : (collection.treeBelow direction levels id).children.links = [] := by
      rw [hsound.treeBelow_eq, unfold, hlevels]
      by_cases hleaf : collection.neighbours direction id = []
      · simp [hleaf, linksBelow, grouped, Children.ofGroups, Tree.children, Children.links,
          Children.groups]
      · simp [hleaf, Tree.children, Children.links, Children.groups]
    rw [hnone]
    simp [hlevels]
  · rw [hsound.links_treeBelow hlevels, (ungrouped_grouped _).mem_iff, linksBelow, List.mem_map]
    simp [hlevels]

/-- A node stands for a dataset at its depth, which the levels allow, and has the tree of
that dataset below it. -/
theorem Sound.nodeAt_treeBelow_iff (hsound : Sound collection) {depth : Nat} {node : Tree} :
    (collection.treeBelow direction levels id).NodeAt depth node ↔
      levels.Allows depth ∧ ∃ target, ReachesIn collection.edges direction depth id target ∧
        node = collection.treeBelow direction (levels.map (· - depth)) target := by
  induction depth generalizing levels id with
  | zero =>
      have hlevels : levels.map (· - 0) = levels := by simp
      rw [Tree.nodeAt_zero, hlevels]
      constructor
      · rintro rfl
        exact ⟨Levels.allows_zero, id, .refl id, rfl⟩
      · rintro ⟨_, target, hpath, rfl⟩
        cases hpath
        rfl
  | succ depth ih =>
      have hlevels : levels.next.map (· - depth) = levels.map (· - (depth + 1)) := by
        rw [Levels.next, Option.map_map]
        congr 1
        funext count
        simp only [Function.comp_apply]
        omega
      rw [Tree.nodeAt_succ, Levels.allows_succ, ← hlevels]
      constructor
      · rintro ⟨link, hlink, hbelow⟩
        obtain ⟨hcut, next, hnext, rfl⟩ := hsound.mem_links_treeBelow.1 hlink
        obtain ⟨hallows, target, hpath, htree⟩ := ih.1 hbelow
        exact ⟨⟨hcut, hallows⟩, target, .head (hsound.leads_iff.2 ⟨next, hnext, rfl⟩) hpath, htree⟩
      · rintro ⟨⟨hcut, hallows⟩, target, hpath, htree⟩
        cases hpath with
        | head hstep hpath =>
            obtain ⟨next, hnext, rfl⟩ := hsound.leads_iff.1 hstep
            refine ⟨_, hsound.mem_links_treeBelow.2 ⟨hcut, next, hnext, rfl⟩, ?_⟩
            exact ih.2 ⟨hallows, target, hpath, htree⟩

theorem Sound.nodeAt_treeBelow (hsound : Sound collection) {depth : Nat} {node : Tree}
    (hnode : (collection.treeBelow direction levels id).NodeAt depth node) :
    node = collection.treeBelow direction (levels.map (· - depth)) node.id ∧
      Reaches collection.edges direction id node.id := by
  obtain ⟨_, target, hpath, rfl⟩ := hsound.nodeAt_treeBelow_iff.1 hnode
  rw [hsound.id_treeBelow]
  exact ⟨rfl, hpath.reaches⟩

theorem Sound.below_of_mentions (hsound : Sound collection) {target : DatasetId}
    (hmentions : (collection.treeBelow direction levels id).Mentions target) :
    Below collection.edges direction id target := by
  obtain ⟨link, hlink, hbelow⟩ := Tree.mentions_iff.1 hmentions
  obtain ⟨_, next, hnext, rfl⟩ := hsound.mem_links_treeBelow.1 hlink
  have hstep := hsound.leads_iff.2 ⟨next, hnext, rfl⟩
  cases hbelow with
  | inl hid =>
      rw [hsound.id_treeBelow] at hid
      exact hid ▸ .single hstep
  | inr hdeeper =>
      obtain ⟨depth, node, hnode, hid⟩ := hdeeper
      have hpath := (hsound.nodeAt_treeBelow hnode).2
      rw [hid] at hpath
      exact .head' hstep hpath

/-- In an extracted tree no dataset comes again below itself. -/
theorem Sound.nonRepeating_treeBelow (hsound : Sound collection) :
    (collection.treeBelow direction levels id).NonRepeating := by
  intro depth node hnode hmentions
  obtain ⟨htree, _⟩ := hsound.nodeAt_treeBelow hnode
  rw [htree] at hmentions
  have hcycle := hsound.below_of_mentions hmentions
  rw [hsound.id_treeBelow] at hcycle
  exact hsound.acyclic.not_below direction _ hcycle

/-- Every dataset that can be reached has a node in the whole tree. -/
theorem Sound.exists_nodeAt_treeBelow (hsound : Sound collection) {target : DatasetId}
    (hpath : Reaches collection.edges direction id target) :
    ∃ depth, (collection.treeBelow direction none id).NodeAt depth
      (collection.treeBelow direction none target) := by
  obtain ⟨depth, hpath⟩ := exists_reachesIn hpath
  exact ⟨depth, hsound.nodeAt_treeBelow_iff.2 ⟨Levels.allows_none, target, hpath, rfl⟩⟩

end Nodes

end Collection

end DatasetLineage
