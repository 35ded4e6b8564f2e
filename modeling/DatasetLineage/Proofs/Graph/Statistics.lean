import DatasetLineage.Graph.Statistics
import DatasetLineage.Proofs.Graph.Reachable
import DatasetLineage.Proofs.Tree.Levels
import Mathlib.Algebra.GroupWithZero.Nat
import Mathlib.Order.Bounds.Basic

/-!
# Longest derivations

The depth of a dataset is the length of the longest path from it, which is the height of its
whole tree.  Depths that were measured are remembered, and since what is remembered is right, it
can be looked up wherever the dataset comes again; without a cycle the measuring comes to an end.
A longest path of all starts at a root, because a path from any other dataset can be made longer
at its start.
-/

namespace DatasetLineage

/-! ## The greatest of some numbers -/

theorem foldl_max_le_iff {α : Type} (value : α → Nat) (values : List α) {start bound : Nat} :
    values.foldl (fun greatest next => max greatest (value next)) start ≤ bound ↔
      start ≤ bound ∧ ∀ next ∈ values, value next ≤ bound := by
  induction values generalizing start with
  | nil => simp
  | cons next rest ih => rw [List.foldl_cons, ih, Nat.max_le, and_assoc, List.forall_mem_cons]

/-- The greatest of some numbers is one of them, unless it is the one to start with. -/
theorem foldl_max_eq_or_mem (values : List Nat) (start : Nat) :
    values.foldl max start = start ∨ values.foldl max start ∈ values := by
  induction values generalizing start with
  | nil => exact .inl rfl
  | cons next rest ih =>
      rw [List.foldl_cons]
      rcases ih (max start next) with hstart | hrest
      · rw [hstart]
        rcases Nat.le_total start next with hle | hle
        · rw [Nat.max_eq_right hle]
          exact .inr List.mem_cons_self
        · exact .inl (Nat.max_eq_left hle)
      · exact .inr (List.mem_cons_of_mem _ hrest)

/-! ## Counting labels -/

section Counts

variable {Node : Type} {groups : List (String × List Node)}

def sizes (groups : List (String × List Node)) : List (String × Nat) :=
  groups.map fun group => (group.1, group.2.length)

/-- To count a label is to put a node into its group. -/
theorem countLabel_sizes (label : String) (node : Node) (groups : List (String × List Node)) :
    Graph.countLabel label (sizes groups) = sizes (addToGroup label node groups) := by
  induction groups with
  | nil => rfl
  | cons group rest ih =>
      rw [sizes, List.map_cons, ← sizes, Graph.countLabel, addToGroup, ih]
      split
      · rfl
      · split
        · simp [sizes]
        · rfl

def Graph.byClassifier (graph : Graph) : List (String × List Relation) :=
  grouped (graph.edges.map fun relation => (relation.classifier, relation))

theorem Graph.classifiers_statistics (graph : Graph) :
    graph.statistics.classifiers = sizes graph.byClassifier := by
  have hfold : ∀ (relations : List Relation) (groups : List (String × List Relation)),
      relations.foldl (fun counts relation => countLabel relation.classifier counts)
          (sizes groups) =
        sizes ((relations.map fun relation => (relation.classifier, relation)).foldl
          (fun groups link => addToGroup link.1 link.2 groups) groups) := by
    intro relations
    induction relations with
    | nil => exact fun _ => rfl
    | cons relation rest ih =>
        intro groups
        rw [List.foldl_cons, countLabel_sizes _ relation, ih]
        rfl
  exact hfold graph.edges []

theorem sum_sizes (groups : List (String × List Node)) :
    ((sizes groups).map Prod.snd).sum = (ungrouped groups).length := by
  simp [sizes, ungrouped, List.length_flatMap, Function.comp_def]

/-- The nodes of a classifier are those of its group. -/
theorem Grouped.filter_of_mem (hgrouped : Grouped groups) {group : String × List Node}
    (hmem : group ∈ groups) :
    (ungrouped groups).filter (fun link => link.1 = group.1) =
      group.2.map fun node => (group.1, node) := by
  induction groups with
  | nil => cases hmem
  | cons head rest ih =>
      rcases List.mem_cons.1 hmem with rfl | hrest
      · exact hgrouped.filter_head
      · have hlt := (List.pairwise_cons.1 hgrouped.ascending).1 group hrest
        have hhead : (head.2.map fun node => (head.1, node)).filter
            (fun link => link.1 = group.1) = [] := by
          simp [List.filter_eq_nil_iff, ne_of_lt hlt]
        rw [ungrouped_cons, List.filter_append, hhead, List.nil_append, ih hgrouped.tail hrest]

/-- The statistics count every classifier once, with the number of its relations. -/
theorem Graph.countP_of_mem_classifiers {graph : Graph} {entry : String × Nat}
    (hentry : entry ∈ graph.statistics.classifiers) :
    entry.2 = graph.edges.countP fun relation => relation.classifier = entry.1 := by
  rw [classifiers_statistics] at hentry
  obtain ⟨group, hgroup, rfl⟩ := List.mem_map.1 hentry
  have hperm := ungrouped_grouped
    (graph.edges.map fun relation => (relation.classifier, relation))
  have hnodes := congrArg List.length ((Grouped.of_links _).filter_of_mem hgroup)
  rw [← List.countP_eq_length_filter, hperm.countP_eq, List.countP_map, List.length_map] at hnodes
  exact hnodes.symm

theorem Graph.sum_classifiers (graph : Graph) :
    (graph.statistics.classifiers.map Prod.snd).sum = graph.edges.length := by
  rw [classifiers_statistics, sum_sizes, byClassifier, (ungrouped_grouped _).length_eq,
    List.length_map]

theorem Graph.ascending_classifiers (graph : Graph) :
    graph.statistics.classifiers.Pairwise fun left right => left.1 < right.1 := by
  rw [classifiers_statistics]
  exact List.pairwise_map.2 (Grouped.of_links _).ascending

end Counts

namespace Collection

variable {collection : Collection} {direction : Direction} {id : DatasetId}

/-! ## Heights of trees -/

def heightBelow (collection : Collection) (direction : Direction) (id : DatasetId) : Nat :=
  (collection.treeBelow direction none id).height

theorem Sound.heightBelow_le_iff (hsound : Sound collection) {bound : Nat} :
    collection.heightBelow direction id ≤ bound ↔
      ∀ steps target, ReachesIn collection.edges direction steps id target → steps ≤ bound := by
  rw [heightBelow, Tree.height_le_iff_nodeAt]
  constructor
  · intro hnodes steps target hpath
    exact hnodes steps _ (hsound.nodeAt_treeBelow_iff.2 ⟨Levels.allows_none, target, hpath, rfl⟩)
  · intro hpaths depth node hnode
    obtain ⟨_, target, hpath, _⟩ := hsound.nodeAt_treeBelow_iff.1 hnode
    exact hpaths depth target hpath

/-- The height of a tree is the length of a longest path. -/
theorem Sound.isGreatest_heightBelow (hsound : Sound collection) :
    IsGreatest {steps | ∃ target, ReachesIn collection.edges direction steps id target}
      (collection.heightBelow direction id) := by
  constructor
  · cases hheight : collection.heightBelow direction id with
    | zero => exact ⟨id, .refl id⟩
    | succ less =>
        have hmore : ¬ collection.heightBelow direction id ≤ less := by omega
        rw [hsound.heightBelow_le_iff] at hmore
        push Not at hmore
        obtain ⟨steps, target, hpath, hlonger⟩ := hmore
        have hbound := hsound.heightBelow_le_iff.1 le_rfl steps target hpath
        have heq : steps = less + 1 := by omega
        exact ⟨target, heq ▸ hpath⟩
  · rintro steps ⟨target, hpath⟩
    exact hsound.heightBelow_le_iff.1 le_rfl steps target hpath

/-- The height of a tree is one more than the greatest among its children. -/
theorem Sound.heightBelow_eq (hsound : Sound collection) :
    collection.heightBelow .derived id =
      ((Graph.ofCollection collection).neighbours .derived id).foldl
        (fun deepest next => max deepest (collection.heightBelow .derived next + 1)) 0 := by
  refine eq_of_forall_ge_iff fun bound => ?_
  rw [foldl_max_le_iff, heightBelow, Tree.height_le_iff]
  refine Iff.trans ?_ (and_iff_right (Nat.zero_le bound)).symm
  constructor
  · intro hlinks next hnext
    obtain ⟨neighbour, hneighbour, rfl⟩ := hsound.leads_iff.1 (Graph.mem_neighbours.1 hnext)
    exact hlinks _ (hsound.mem_links_treeBelow.2
      ⟨(Option.some_ne_none 0).symm, neighbour, hneighbour, rfl⟩)
  · intro hneighbours link hlink
    obtain ⟨_, neighbour, hneighbour, rfl⟩ := hsound.mem_links_treeBelow.1 hlink
    exact hneighbours neighbour.id
      (Graph.mem_neighbours.2 (hsound.leads_iff.2 ⟨neighbour, hneighbour, rfl⟩))

/-! ## Remembered depths -/

def Measured (collection : Collection) (known : Graph.Depths) : Prop :=
  ∀ id depth, known.get? id = some depth → depth = collection.heightBelow .derived id

theorem measured_empty : Measured collection OrderedMap.empty := by
  intro id depth hdepth
  cases hdepth

theorem Measured.insert {known : Graph.Depths} (hknown : Measured collection known)
    (id : DatasetId) :
    Measured collection (known.insert id (collection.heightBelow .derived id)) := by
  intro other depth hdepth
  rw [OrderedMap.get?_insert] at hdepth
  split at hdepth
  · next hrank =>
    rw [← rank_eq_iff.1 hrank, ← Option.some.inj hdepth]
  · exact hknown other depth hdepth

/-- Datasets are measured one after the other, if each of them can be measured. -/
theorem foldlM_depthFrom {graph : Graph} {enterable ids : List DatasetId}
    (hmeasured : ∀ next ∈ ids, ∀ known, Measured collection known →
      ∃ after, graph.depthFrom enterable known next =
        some (collection.heightBelow .derived next, after) ∧ Measured collection after)
    {known : Graph.Depths} (hknown : Measured collection known) (start : Nat) :
    ∃ after, ids.foldlM
        (fun (deepest, known) next =>
          (graph.depthFrom enterable known next).map
            fun (depth, known) => (max deepest (depth + 1), known))
        (start, known) =
      some (ids.foldl
        (fun deepest next => max deepest (collection.heightBelow .derived next + 1)) start,
          after) ∧ Measured collection after := by
  induction ids generalizing known start with
  | nil => exact ⟨known, rfl, hknown⟩
  | cons next rest ih =>
      rw [List.forall_mem_cons] at hmeasured
      obtain ⟨middle, hnext, hmiddle⟩ := hmeasured.1 known hknown
      obtain ⟨after, hrest, hafter⟩ :=
        ih hmeasured.2 hmiddle (max start (collection.heightBelow .derived next + 1))
      refine ⟨after, ?_, hafter⟩
      simp only [List.foldlM_cons, hnext]
      exact hrest

/-- Without a cycle the measuring of a dataset ends, and its result is the height of its
tree. -/
theorem Sound.depthFrom_eq (hsound : Sound collection) {enterable : List DatasetId}
    (henterable : collection.Enterable .derived enterable id) {known : Graph.Depths}
    (hknown : Measured collection known) :
    ∃ after, (Graph.ofCollection collection).depthFrom enterable known id =
      some (collection.heightBelow .derived id, after) ∧ Measured collection after := by
  have hdescent := hsound.acyclic.wellFounded .derived
  induction id using hdescent.induction generalizing enterable known with
  | _ id ih =>
      rw [Graph.depthFrom]
      cases hget : known.get? id with
      | some depth => exact ⟨known, by rw [hknown id depth hget], hknown⟩
      | none =>
          have hbelow : ∀ next ∈ (Graph.ofCollection collection).neighbours .derived id,
              ∀ known, Measured collection known →
                ∃ after, (Graph.ofCollection collection).depthFrom (without enterable id) known
                  next = some (collection.heightBelow .derived next, after) ∧
                    Measured collection after := by
            intro next hnext known hknown
            have hstep := Graph.mem_neighbours.1 hnext
            exact ih next hstep (hsound.enterable_without henterable hstep) hknown
          obtain ⟨after, hfold, hafter⟩ := foldlM_depthFrom hbelow hknown 0
          rw [← hsound.heightBelow_eq] at hfold
          refine ⟨after.insert id (collection.heightBelow .derived id), ?_, hafter.insert id⟩
          simp only [if_pos (henterable id .refl), hfold]

theorem Sound.enterable_datasetIds (hsound : Sound collection) (hid : id ∈ collection.datasetIds) :
    collection.Enterable direction collection.datasetIds id := by
  intro target hpath
  rcases Relation.ReflTransGen.cases_tail hpath with heq | ⟨parent, _, hstep⟩
  · rw [heq]
    exact hid
  · exact OrderedMap.contains_iff_mem_keys.1 (hsound.contains_of_leads direction hstep).2

theorem Sound.maxDerivationDepth_eq (hsound : Sound collection)
    (hid : id ∈ collection.datasetIds) :
    (∃ known, (Graph.ofCollection collection).depthFrom collection.datasetIds OrderedMap.empty id =
      some (collection.heightBelow .derived id, known)) ∧
    (Graph.ofCollection collection).maxDerivationDepth id =
      .ok (collection.heightBelow .derived id) := by
  obtain ⟨known, hmeasured, _⟩ :=
    hsound.depthFrom_eq (hsound.enterable_datasetIds hid) measured_empty
  refine ⟨⟨known, hmeasured⟩, ?_⟩
  have hnodes : (Graph.ofCollection collection).nodes = collection.datasetIds := rfl
  rw [Graph.maxDerivationDepth, hnodes, if_pos hid, hmeasured]
  rfl

/-! ## The longest derivation of all -/

/-- Every known dataset was derived from a root, if it is none. -/
theorem Sound.exists_root (hsound : Sound collection) (hid : id ∈ collection.datasetIds) :
    ∃ root ∈ (Graph.ofCollection collection).roots,
      Reaches collection.edges .derived root id := by
  have hdescent := hsound.acyclic.wellFounded .sources
  induction id using hdescent.induction with
  | _ id ih =>
      by_cases hroot : ∃ source, Leads collection.edges .sources id source
      · obtain ⟨source, hstep⟩ := hroot
        have hknown := OrderedMap.contains_iff_mem_keys.1
          (hsound.contains_of_leads .sources hstep).2
        obtain ⟨root, hmem, hpath⟩ := ih source hstep hknown
        exact ⟨root, hmem, hpath.tail (leads_opposite.1 hstep)⟩
      · exact ⟨id, Graph.mem_ends.2 ⟨hid, not_exists.1 hroot⟩, .refl⟩

/-- What is measured for the statistics is the heights of the trees of the roots. -/
theorem Sound.longestDerivation_eq (hsound : Sound collection) :
    (Graph.ofCollection collection).statistics.longestDerivation =
      ((Graph.ofCollection collection).roots.map (collection.heightBelow .derived)).foldl
        max 0 := by
  have hdepths : (Graph.ofCollection collection).roots.filterMap
      (fun id => ((Graph.ofCollection collection).maxDerivationDepth id).toOption) =
        (Graph.ofCollection collection).roots.map (collection.heightBelow .derived) := by
    rw [← List.filterMap_eq_map]
    refine List.filterMap_congr fun id hid => ?_
    rw [(hsound.maxDerivationDepth_eq (Graph.mem_ends.1 hid).1).2]
    rfl
  rw [Graph.statistics, hdepths]

/-- No path is longer than the longest one from a root. -/
theorem Sound.isGreatest_longestDerivation (hsound : Sound collection) :
    IsGreatest {steps | ∃ origin target,
        ReachesIn collection.edges .derived steps origin target}
      (Graph.ofCollection collection).statistics.longestDerivation := by
  rw [hsound.longestDerivation_eq]
  constructor
  · rcases foldl_max_eq_or_mem
        ((Graph.ofCollection collection).roots.map (collection.heightBelow .derived)) 0 with
      hzero | hmem
    · rw [hzero]
      exact ⟨.numbered 0, .numbered 0, .refl _⟩
    · obtain ⟨root, _, hheight⟩ := List.mem_map.1 hmem
      rw [← hheight]
      exact ⟨root, hsound.isGreatest_heightBelow.1⟩
  · rintro steps ⟨origin, target, hpath⟩
    cases hpath with
    | refl id => exact Nat.zero_le _
    | @head rest _ child _ hstep hrest =>
        have hknown := OrderedMap.contains_iff_mem_keys.1
          (hsound.contains_of_leads .derived hstep).1
        obtain ⟨root, hroot, hreaches⟩ := hsound.exists_root hknown
        obtain ⟨before, hbefore⟩ := exists_reachesIn hreaches
        have hheight := hsound.heightBelow_le_iff.1 le_rfl _ _ (hbefore.append (.head hstep hrest))
        have hlisted := ((@foldl_max_le_iff Nat id
          ((Graph.ofCollection collection).roots.map (collection.heightBelow .derived)) 0 _).1
            le_rfl).2 _ (List.mem_map_of_mem hroot)
        exact (Nat.le_add_left _ _).trans (hheight.trans hlisted)

/-- Longest derivations are computed exactly.  For every known dataset the measuring ends, with
the length of a longest path from it, which is the height of its extracted tree.  The longest
derivation in the statistics, for which only roots are measured, is the length of a longest path
anywhere.  The classifiers are counted one by one, and their counts add up to the number of
relations. -/
theorem Built.longest_derivations (hbuilt : Built collection) :
    (∀ id ∈ collection.datasetIds, ∃ tree known,
      collection.extractTree id .derived = .ok tree ∧
      (Graph.ofCollection collection).depthFrom collection.datasetIds OrderedMap.empty id =
        some (tree.height, known) ∧
      (Graph.ofCollection collection).maxDerivationDepth id = .ok tree.height ∧
      IsGreatest {steps | ∃ target, ReachesIn collection.edges .derived steps id target}
        tree.height) ∧
    IsGreatest {steps | ∃ origin target,
        ReachesIn collection.edges .derived steps origin target}
      (Graph.ofCollection collection).statistics.longestDerivation ∧
    ((Graph.ofCollection collection).statistics.classifiers.map Prod.snd).sum =
      collection.relations.length ∧
    ((Graph.ofCollection collection).statistics.classifiers.Pairwise
      fun left right => left.1 < right.1) ∧
    ∀ entry ∈ (Graph.ofCollection collection).statistics.classifiers,
      entry.2 = collection.relations.countP fun relation => relation.classifier = entry.1 := by
  have hsound := hbuilt.sound
  refine ⟨fun id hid => ?_, hsound.isGreatest_longestDerivation, Graph.sum_classifiers _,
    Graph.ascending_classifiers _, fun entry => Graph.countP_of_mem_classifiers⟩
  obtain ⟨⟨known, hmeasured⟩, hdepth⟩ := hsound.maxDerivationDepth_eq hid
  exact ⟨_, known, hsound.extractTree_eq id, hmeasured, hdepth, hsound.isGreatest_heightBelow⟩

/-- A chain of two relations, and a third one that leads past its middle: the longer way
counts. -/
theorem longest_derivations_of_chain :
    ∃ collection, Built collection ∧
      collection.relations = [⟨"nbar", .numbered 1, .numbered 2⟩,
        ⟨"bias", .numbered 2, .numbered 3⟩, ⟨"nbar", .numbered 1, .numbered 3⟩] ∧
      (Graph.ofCollection collection).maxDerivationDepth (.numbered 1) = .ok 2 ∧
      (Graph.ofCollection collection).statistics.longestDerivation = 2 ∧
      ((Graph.ofCollection collection).statistics.classifiers.map Prod.snd).sum = 3 := by
  obtain ⟨collection, hbuilt, hrelations⟩ := @exists_built_of_ascending
    [⟨"nbar", .numbered 1, .numbered 2⟩, ⟨"bias", .numbered 2, .numbered 3⟩,
      ⟨"nbar", .numbered 1, .numbered 3⟩] (by decide) (by decide)
  obtain ⟨hdepths, hlongest, hsum, _, _⟩ := hbuilt.longest_derivations
  have hends : ∀ relation ∈ collection.relations, 1 ≤ relation.source.value ∧
      relation.source.value < relation.derived.value ∧ relation.derived.value ≤ 3 := by
    rw [hrelations]
    decide
  have hshort : ∀ {steps origin target}, ReachesIn collection.edges .derived steps origin target →
      steps = 0 ∨ 1 ≤ origin.value ∧ steps + origin.value ≤ 3 := by
    intro steps origin target hpath
    induction hpath with
    | refl id => exact .inl rfl
    | head hstep _ ih =>
        obtain ⟨relation, hmem, hedge⟩ := hstep
        cases hedge
        have := hends relation hmem
        omega
  have hedge : ∀ relation ∈ collection.relations, relation.edge ∈ collection.edges :=
    fun _ => Relation.edge_mem_edgesOf
  rw [hrelations] at hedge
  have hfirst : Leads collection.edges .derived (.numbered 1) (.numbered 2) :=
    hedge ⟨"nbar", .numbered 1, .numbered 2⟩ (by decide)
  have hpath : ReachesIn collection.edges .derived 2 (.numbered 1) (.numbered 3) :=
    .head hfirst (.head (hedge ⟨"bias", .numbered 2, .numbered 3⟩ (by decide)) (.refl _))
  obtain ⟨tree, _, _, _, hdepth, hheight⟩ := hdepths (.numbered 1)
    (OrderedMap.contains_iff_mem_keys.1 (hbuilt.sound.contains_of_leads .derived hfirst).1)
  have htwo : tree.height = 2 := by
    refine hheight.unique ⟨⟨_, hpath⟩, ?_⟩
    rintro steps ⟨target, hsteps⟩
    have := hshort hsteps
    omega
  refine ⟨collection, hbuilt, hrelations, htwo ▸ hdepth, ?_, ?_⟩
  · refine hlongest.unique ⟨⟨_, _, hpath⟩, ?_⟩
    rintro steps ⟨origin, target, hsteps⟩
    have := hshort hsteps
    omega
  · rw [hsum, hrelations]
    rfl

end Collection

end DatasetLineage
