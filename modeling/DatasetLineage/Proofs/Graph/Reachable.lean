import DatasetLineage.Graph.Reachable
import DatasetLineage.Proofs.Collection.Detail
import DatasetLineage.Proofs.Collection.Snapshot
import DatasetLineage.Proofs.Collection.Walks

/-!
# The graph against extracted trees

The queue of a search is worked off layer by layer, and a layer is what lies at one distance from
where the search started.  So every dataset that can be reached is found once, the nearest first,
and the dataset of the start is not found.  The same datasets are in the tree that is extracted
for the start, where each of them can come many times.
-/

namespace DatasetLineage

/-! ## Distances -/

/-- A dataset is reached from another one in so many steps, and not in fewer. -/
def Distance (edges : Set Edge) (direction : Direction) (steps : Nat)
    (origin target : DatasetId) : Prop :=
  ReachesIn edges direction steps origin target ∧
    ∀ fewer < steps, ¬ ReachesIn edges direction fewer origin target

section Distance

variable {edges : Set Edge} {direction : Direction} {steps : Nat} {origin target : DatasetId}

theorem distance_zero : Distance edges direction 0 origin target ↔ origin = target := by
  rw [Distance, reachesIn_zero]
  exact and_iff_left fun _ hfewer => absurd hfewer (Nat.not_lt_zero _)

theorem Distance.unique {other : Nat} (hdistance : Distance edges direction steps origin target)
    (hother : Distance edges direction other origin target) : steps = other := by
  rcases Nat.lt_trichotomy steps other with hlt | heq | hgt
  · exact absurd hdistance.1 (hother.2 steps hlt)
  · exact heq
  · exact absurd hother.1 (hdistance.2 other hgt)

/-- What can be reached at all lies at some distance. -/
theorem ReachesIn.exists_distance (hpath : ReachesIn edges direction steps origin target) :
    ∃ least ≤ steps, Distance edges direction least origin target := by
  classical
  have hsome : ∃ steps, ReachesIn edges direction steps origin target := ⟨steps, hpath⟩
  exact ⟨Nat.find hsome, Nat.find_min' hsome hpath, Nat.find_spec hsome,
    fun _ hfewer => Nat.find_min hsome hfewer⟩

/-- One step further than a distance lies what can be reached from there and is not closer. -/
theorem distance_succ :
    Distance edges direction (steps + 1) origin target ↔
      (∃ parent, Distance edges direction steps origin parent ∧
        Leads edges direction parent target) ∧
      ∀ fewer ≤ steps, ¬ ReachesIn edges direction fewer origin target := by
  constructor
  · rintro ⟨hpath, hleast⟩
    refine ⟨?_, fun fewer hfewer => hleast fewer (Nat.lt_succ_of_le hfewer)⟩
    obtain ⟨parent, hparent, hstep⟩ := reachesIn_succ_last.1 hpath
    refine ⟨parent, ⟨hparent, fun fewer hfewer hcloser => ?_⟩, hstep⟩
    exact hleast (fewer + 1) (Nat.succ_lt_succ hfewer)
      (reachesIn_succ_last.2 ⟨parent, hcloser, hstep⟩)
  · rintro ⟨⟨parent, hparent, hstep⟩, hleast⟩
    exact ⟨reachesIn_succ_last.2 ⟨parent, hparent.1, hstep⟩,
      fun fewer hfewer => hleast fewer (Nat.le_of_lt_succ hfewer)⟩

/-- Where nothing lies at some distance, nothing lies further away. -/
theorem not_distance_of_le {near : Nat}
    (hnone : ∀ target, ¬ Distance edges direction near origin target) (hfar : near ≤ steps) :
    ¬ Distance edges direction steps origin target := by
  induction hfar generalizing target with
  | refl => exact hnone target
  | step _ ih =>
      intro hdistance
      obtain ⟨⟨parent, hparent, _⟩, _⟩ := distance_succ.1 hdistance
      exact ih hparent

end Distance

namespace Graph

variable {graph : Graph} {direction : Direction} {root : DatasetId} {steps : Nat}
  {unseen layer : List DatasetId}

/-- The neighbours of a dataset are what the edges lead to. -/
theorem mem_neighbours {id other : DatasetId} :
    other ∈ graph.neighbours direction id ↔
      Leads (edgesOf graph.edges) direction id other := by
  simp only [neighbours, List.mem_filterMap, List.mem_reverse, Leads, mem_edgesOf]
  refine exists_congr fun relation => and_congr_right fun _ => ?_
  obtain ⟨classifier, source, derived⟩ := relation
  cases direction <;> simp [Direction.edge, Relation.edge, and_comm]

theorem mem_ends {id : DatasetId} :
    id ∈ graph.ends direction ↔
      id ∈ graph.nodes ∧ ∀ other, ¬ Leads (edgesOf graph.edges) direction id other := by
  simp only [ends, List.mem_filter, List.isEmpty_iff, List.eq_nil_iff_forall_not_mem,
    mem_neighbours]

/-- No node comes twice, and edges join nodes. -/
structure Closed (graph : Graph) : Prop where
  distinct : graph.nodes.Nodup
  ends : ∀ relation ∈ graph.edges, relation.source ∈ graph.nodes ∧ relation.derived ∈ graph.nodes

theorem Closed.mem_nodes_of_leads (hclosed : Closed graph) {parent child : DatasetId}
    (hstep : Leads (edgesOf graph.edges) direction parent child) :
    parent ∈ graph.nodes ∧ child ∈ graph.nodes := by
  obtain ⟨⟨classifier, source, derived⟩, hmem, hedge⟩ := hstep
  have hends := hclosed.ends _ hmem
  cases direction with
  | sources =>
      cases hedge
      exact hends.symm
  | derived =>
      cases hedge
      exact hends

theorem closed_ofCollection {collection : Collection} (hlockstep : collection.Lockstep) :
    Closed (ofCollection collection) where
  distinct := OrderedMap.distinct_of_ascending collection.known.ascending
  ends := by
    intro relation hmem
    obtain ⟨hsource, hderived⟩ := hlockstep.known relation hmem
    exact ⟨OrderedMap.contains_iff_mem_keys.1 hsource, OrderedMap.contains_iff_mem_keys.1 hderived⟩

/-! ## Layers of a search -/

/-- The datasets that a layer leads to and that were not seen yet, and what is still unseen
after them. -/
def nextLayer (graph : Graph) (direction : Direction) (layer unseen : List DatasetId) :
    List DatasetId × List DatasetId :=
  claim (layer.flatMap (graph.neighbours direction)) unseen

/-- A queue works off the layer at its front, and the next layer is at its end then. -/
theorem searchQueue_append (graph : Graph) (direction : Direction)
    (unseen layer waiting : List DatasetId) :
    graph.searchQueue direction unseen (layer ++ waiting) =
      (graph.nextLayer direction layer unseen).1 ++
        graph.searchQueue direction (graph.nextLayer direction layer unseen).2
          (waiting ++ (graph.nextLayer direction layer unseen).1) := by
  induction layer generalizing unseen waiting with
  | nil => simp [nextLayer, claim]
  | cons current rest ih =>
      rw [List.cons_append, searchQueue, List.append_assoc, ih]
      simp only [nextLayer, List.flatMap_cons, claim_append, List.append_assoc]

theorem searchQueue_layer (graph : Graph) (direction : Direction)
    (unseen layer : List DatasetId) :
    graph.searchQueue direction unseen layer =
      (graph.nextLayer direction layer unseen).1 ++
        graph.searchQueue direction (graph.nextLayer direction layer unseen).2
          (graph.nextLayer direction layer unseen).1 := by
  have hqueue := graph.searchQueue_append direction unseen layer []
  rwa [List.append_nil, List.nil_append] at hqueue

/-- A search has come to a distance: the layer is what lies there, and unseen is what cannot be
reached in so many steps. -/
structure Explored (graph : Graph) (direction : Direction) (root : DatasetId) (steps : Nat)
    (layer unseen : List DatasetId) : Prop where
  layer_iff : ∀ id, id ∈ layer ↔ Distance (edgesOf graph.edges) direction steps root id
  unseen_iff : ∀ id, id ∈ unseen ↔ id ∈ graph.nodes ∧
    ∀ fewer ≤ steps, ¬ ReachesIn (edgesOf graph.edges) direction fewer root id

theorem explored_start : Explored graph direction root 0 [root] (without graph.nodes root) where
  layer_iff := by
    intro id
    rw [distance_zero, List.mem_singleton, eq_comm]
  unseen_iff := by
    intro id
    simp only [mem_without, Nat.le_zero, forall_eq, reachesIn_zero, ne_eq, eq_comm]

/-- The next layer is what the layer leads to and is unseen. -/
theorem Explored.next (hclosed : Closed graph)
    (hexplored : Explored graph direction root steps layer unseen) :
    Explored graph direction root (steps + 1)
      (graph.nextLayer direction layer unseen).1 (graph.nextLayer direction layer unseen).2 := by
  have hcandidate : ∀ id, id ∈ layer.flatMap (graph.neighbours direction) ↔
      ∃ parent, Distance (edgesOf graph.edges) direction steps root parent ∧
        Leads (edgesOf graph.edges) direction parent id := by
    intro id
    simp only [List.mem_flatMap, hexplored.layer_iff, mem_neighbours]
  constructor
  · intro id
    rw [nextLayer, mem_claimed, hcandidate, hexplored.unseen_iff, distance_succ]
    refine and_congr_right fun ⟨parent, _, hstep⟩ => and_iff_right ?_
    exact (hclosed.mem_nodes_of_leads hstep).2
  · intro id
    rw [nextLayer, mem_left_unseen, hcandidate, hexplored.unseen_iff, and_assoc]
    refine and_congr_right fun _ => ?_
    constructor
    · intro ⟨hcloser, hnext⟩ fewer hfewer hpath
      obtain ⟨least, hleast, hdistance⟩ := hpath.exists_distance
      rcases Nat.lt_or_eq_of_le (hleast.trans hfewer) with hlt | rfl
      · exact hcloser least (Nat.le_of_lt_succ hlt) hdistance.1
      · exact hnext (distance_succ.1 hdistance).1
    · intro hnone
      refine ⟨fun fewer hfewer => hnone fewer (Nat.le_succ_of_le hfewer), ?_⟩
      rintro ⟨parent, hparent, hstep⟩
      exact hnone (steps + 1) le_rfl (reachesIn_succ_last.2 ⟨parent, hparent.1, hstep⟩)

/-- A list holds what lies further away than some steps, each dataset once and the nearest
first. -/
structure ListsBeyond (graph : Graph) (direction : Direction) (root : DatasetId) (steps : Nat)
    (found : List DatasetId) : Prop where
  distinct : found.Nodup
  mem_iff : ∀ id, id ∈ found ↔
    ∃ further > steps, Distance (edgesOf graph.edges) direction further root id
  nearest : found.Pairwise fun near far => ∃ steps further, steps ≤ further ∧
    Distance (edgesOf graph.edges) direction steps root near ∧
      Distance (edgesOf graph.edges) direction further root far

/-- A layer in front of what lies further away. -/
theorem ListsBeyond.prepend {found rest : List DatasetId} (hdistinct : found.Nodup)
    (hfound : ∀ id, id ∈ found ↔ Distance (edgesOf graph.edges) direction (steps + 1) root id)
    (hrest : ListsBeyond graph direction root (steps + 1) rest) :
    ListsBeyond graph direction root steps (found ++ rest) where
  distinct := by
    refine List.nodup_append.2 ⟨hdistinct, hrest.distinct, fun id hid other hother heq => ?_⟩
    obtain ⟨further, hfurther, hdistance⟩ := (hrest.mem_iff other).1 hother
    rw [← heq] at hdistance
    exact Nat.ne_of_gt hfurther (hdistance.unique ((hfound id).1 hid))
  mem_iff := by
    intro id
    rw [List.mem_append, hfound, hrest.mem_iff]
    constructor
    · rintro (hdistance | ⟨further, hfurther, hdistance⟩)
      · exact ⟨steps + 1, Nat.lt_succ_self steps, hdistance⟩
      · exact ⟨further, Nat.lt_of_succ_lt hfurther, hdistance⟩
    · rintro ⟨further, hfurther, hdistance⟩
      rcases Nat.lt_or_eq_of_le (Nat.succ_le_of_lt hfurther) with hlt | rfl
      · exact .inr ⟨further, hlt, hdistance⟩
      · exact .inl hdistance
  nearest := by
    refine List.pairwise_append.2 ⟨?_, hrest.nearest, ?_⟩
    · refine List.pairwise_of_forall_mem_list fun near hnear far hfar => ?_
      exact ⟨steps + 1, steps + 1, le_rfl, (hfound near).1 hnear, (hfound far).1 hfar⟩
    · intro near hnear far hfar
      obtain ⟨further, hfurther, hdistance⟩ := (hrest.mem_iff far).1 hfar
      exact ⟨steps + 1, further, Nat.le_of_lt hfurther, (hfound near).1 hnear, hdistance⟩

theorem listsBeyond_nil
    (hnone : ∀ id, ¬ Distance (edgesOf graph.edges) direction (steps + 1) root id) :
    ListsBeyond graph direction root steps [] where
  distinct := .nil
  mem_iff := by
    intro id
    refine iff_of_false List.not_mem_nil ?_
    rintro ⟨further, hfurther, hdistance⟩
    exact not_distance_of_le hnone hfurther hdistance
  nearest := .nil

/-- With a layer in its queue, a search lists all that lies further away.  It comes to an end,
since a layer that goes on leaves less unseen. -/
theorem Explored.listsBeyond (hclosed : Closed graph)
    (hexplored : Explored graph direction root steps layer unseen) :
    ListsBeyond graph direction root steps (graph.searchQueue direction unseen layer) := by
  induction hlength : unseen.length using Nat.strong_induction_on
    generalizing steps layer unseen with
  | _ length ih =>
      have hnext := hexplored.next hclosed
      rw [searchQueue_layer]
      by_cases hnone : (graph.nextLayer direction layer unseen).1 = []
      · rw [hnone, searchQueue, List.append_nil]
        refine listsBeyond_nil fun id hdistance => ?_
        have hclaimed := (hnext.layer_iff id).2 hdistance
        rw [hnone] at hclaimed
        cases hclaimed
      · have hless := length_claim_lt hnone
        exact .prepend (nodup_claimed _ _) hnext.layer_iff (ih _ (hlength ▸ hless) hnext rfl)

/-- A search of a node succeeds. -/
theorem reachable_eq_ok (graph : Graph) (direction : Direction) (hmem : root ∈ graph.nodes) :
    ∃ found, graph.reachable direction root = .ok found :=
  ⟨_, if_pos hmem⟩

/-- What a search finds is all that lies further away than no steps. -/
theorem Closed.listsBeyond_of_reachable (hclosed : Closed graph) {found : List DatasetId}
    (hfound : graph.reachable direction root = .ok found) :
    ListsBeyond graph direction root 0 found := by
  rw [reachable] at hfound
  split at hfound
  · cases hfound
    exact explored_start.listsBeyond hclosed
  · cases hfound

theorem ListsBeyond.mem_iff_reaches {found : List DatasetId} {id : DatasetId}
    (hlists : ListsBeyond graph direction root 0 found) :
    id ∈ found ↔ Reaches (edgesOf graph.edges) direction root id ∧ id ≠ root := by
  rw [hlists.mem_iff]
  constructor
  · rintro ⟨further, hfurther, hdistance⟩
    refine ⟨hdistance.1.reaches, ?_⟩
    rintro rfl
    exact hdistance.2 0 hfurther (.refl id)
  · intro ⟨hreaches, hne⟩
    obtain ⟨depth, hpath⟩ := exists_reachesIn hreaches
    obtain ⟨further, _, hdistance⟩ := hpath.exists_distance
    refine ⟨further, Nat.pos_of_ne_zero ?_, hdistance⟩
    rintro rfl
    exact hne (distance_zero.1 hdistance).symm

end Graph

namespace Collection

variable {collection : Collection} {direction : Direction} {id : DatasetId}

/-- The whole tree of a dataset mentions what lies below the dataset. -/
theorem Sound.mentions_treeBelow_iff (hsound : Sound collection) {target : DatasetId} :
    (collection.treeBelow direction none id).Mentions target ↔
      Below collection.edges direction id target := by
  refine ⟨hsound.below_of_mentions, fun hbelow => ?_⟩
  obtain ⟨child, hstep, hreaches⟩ := Relation.TransGen.head'_iff.1 hbelow
  obtain ⟨depth, hpath⟩ := exists_reachesIn hreaches
  refine ⟨depth, collection.treeBelow direction none target, ?_, hsound.id_treeBelow⟩
  exact hsound.nodeAt_treeBelow_iff.2 ⟨Levels.allows_none, target, .head hstep hpath, rfl⟩

theorem Sound.children_treeBelow_eq_empty_iff (hsound : Sound collection) :
    (collection.treeBelow direction none id).children = .empty ↔
      ∀ child, ¬ Leads collection.edges direction id child := by
  constructor
  · intro hempty child hstep
    have hdetail := hsound.hasDetail_treeBelow.2 ⟨(Option.some_ne_none 0).symm, child, hstep⟩
    rw [hempty] at hdetail
    cases hdetail
  · intro hnone
    have hleaf : collection.neighbours direction id = [] := by
      refine List.eq_nil_iff_forall_not_mem.2 fun next hnext => ?_
      exact hnone next.id (hsound.leads_iff.2 ⟨next, hnext, rfl⟩)
    rw [hsound.treeBelow_of_leaf hleaf]
    rfl

/-- Datasets found from another one are those of its extracted tree, each of them once, the
nearest first, and without the dataset itself. -/
structure Unfolds (collection : Collection) (direction : Direction) (id : DatasetId)
    (found : List DatasetId) : Prop where
  distinct : found.Nodup
  elsewhere : id ∉ found
  nearest : found.Pairwise fun near far => ∃ steps further, steps ≤ further ∧
    Distance collection.edges direction steps id near ∧
      Distance collection.edges direction further id far
  extracted : ∃ tree ids, collection.extractTree id direction = .ok tree ∧
    tree.childDatasets = .ok ids ∧ ∀ other, other ∈ found ↔ ids.contains other = true

def ExtractsLeaf (collection : Collection) (direction : Direction) (id : DatasetId) : Prop :=
  ∃ tree, collection.extractTree id direction = .ok tree ∧ tree.children = .empty

theorem Sound.extractsLeaf_iff (hsound : Sound collection) :
    collection.ExtractsLeaf direction id ↔
      ∀ child, ¬ Leads collection.edges direction id child := by
  rw [← hsound.children_treeBelow_eq_empty_iff, ExtractsLeaf, hsound.extractTree_eq]
  simp

theorem Sound.mem_iff_below (hsound : Sound collection) {found : List DatasetId}
    (hlists : (Graph.ofCollection collection).ListsBeyond direction id 0 found)
    {other : DatasetId} : other ∈ found ↔ Below collection.edges direction id other := by
  rw [hlists.mem_iff_reaches]
  refine (and_congr_left' Relation.reflTransGen_iff_eq_or_transGen).trans ?_
  constructor
  · intro ⟨hreaches, hne⟩
    exact hreaches.resolve_left hne
  · intro hbelow
    refine ⟨.inr hbelow, ?_⟩
    rintro rfl
    exact hsound.acyclic.not_below direction other hbelow

theorem Sound.unfolds (hsound : Sound collection) {found : List DatasetId}
    (hlists : (Graph.ofCollection collection).ListsBeyond direction id 0 found) :
    collection.Unfolds direction id found where
  distinct := hlists.distinct
  elsewhere := fun hmem =>
    hsound.acyclic.not_below direction id ((hsound.mem_iff_below hlists).1 hmem)
  nearest := hlists.nearest
  extracted := by
    obtain ⟨ids, hids⟩ := Tree.childDatasets_succeeds_iff.2 hsound.nonRepeating_treeBelow
    refine ⟨_, ids, hsound.extractTree_eq id, hids, fun other => ?_⟩
    rw [(Tree.listed _).contains_iff ids hids, hsound.mentions_treeBelow_iff,
      hsound.mem_iff_below hlists]

/-- The graph agrees with extraction.  For every known dataset the searches in both directions
succeed, and find what the extracted tree of that direction holds, each dataset once and the
nearest first; a dataset is among the descendants of another one exactly if that one is among
its ancestors.  The roots and leaves are the datasets whose extracted trees have no children. -/
theorem Built.graph_agrees_with_extractTree (hbuilt : Built collection) :
    (∀ id ∈ collection.datasetIds, ∃ derived sources,
      (Graph.ofCollection collection).descendants id = .ok derived ∧
      (Graph.ofCollection collection).ancestors id = .ok sources ∧
      collection.Unfolds .derived id derived ∧ collection.Unfolds .sources id sources) ∧
    (∀ id other derived sources,
      (Graph.ofCollection collection).descendants id = .ok derived →
      (Graph.ofCollection collection).ancestors other = .ok sources →
        (other ∈ derived ↔ id ∈ sources)) ∧
    (Graph.ofCollection collection).roots.Nodup ∧
    (∀ id, id ∈ (Graph.ofCollection collection).roots ↔
      id ∈ collection.datasetIds ∧ collection.ExtractsLeaf .sources id) ∧
    (Graph.ofCollection collection).leaves.Nodup ∧
    ∀ id, id ∈ (Graph.ofCollection collection).leaves ↔
      id ∈ collection.datasetIds ∧ collection.ExtractsLeaf .derived id := by
  have hsound := hbuilt.sound
  have hclosed := Graph.closed_ofCollection hsound.toLockstep
  refine ⟨?_, ?_, hclosed.distinct.filter _, ?_, hclosed.distinct.filter _, ?_⟩
  · intro id hid
    obtain ⟨derived, hderived⟩ := (Graph.ofCollection collection).reachable_eq_ok .derived hid
    obtain ⟨sources, hsources⟩ := (Graph.ofCollection collection).reachable_eq_ok .sources hid
    exact ⟨derived, sources, hderived, hsources,
      hsound.unfolds (hclosed.listsBeyond_of_reachable hderived),
      hsound.unfolds (hclosed.listsBeyond_of_reachable hsources)⟩
  · intro id other derived sources hderived hsources
    have hbelow := hclosed.listsBeyond_of_reachable hderived
    have habove := hclosed.listsBeyond_of_reachable hsources
    rw [hsound.mem_iff_below hbelow, hsound.mem_iff_below habove]
    exact (@below_opposite collection.edges .derived id other).symm
  · intro id
    rw [hsound.extractsLeaf_iff]
    exact Graph.mem_ends
  · intro id
    rw [hsound.extractsLeaf_iff]
    exact Graph.mem_ends

/-- In a diamond the last dataset, to which two ways lead, is found once from the first one. -/
theorem graph_agrees_with_extractTree_of_diamond :
    ∃ (collection : Collection) (found : List DatasetId), Built collection ∧
      collection.relations = [⟨"nbar", .numbered 1, .numbered 2⟩,
        ⟨"flat", .numbered 1, .numbered 3⟩, ⟨"bias", .numbered 2, .numbered 4⟩,
        ⟨"dark", .numbered 3, .numbered 4⟩] ∧
      (Graph.ofCollection collection).descendants (.numbered 1) = .ok found ∧
      collection.Unfolds .derived (.numbered 1) found ∧ .numbered 4 ∈ found ∧
      .numbered 1 ∈ (Graph.ofCollection collection).roots ∧
      .numbered 1 ∉ (Graph.ofCollection collection).leaves := by
  obtain ⟨collection, hbuilt, hrelations⟩ := @exists_built_of_ascending
    [⟨"nbar", .numbered 1, .numbered 2⟩, ⟨"flat", .numbered 1, .numbered 3⟩,
      ⟨"bias", .numbered 2, .numbered 4⟩, ⟨"dark", .numbered 3, .numbered 4⟩]
    (by decide) (by decide)
  obtain ⟨hsearches, _, _, hroots, _, hleaves⟩ := hbuilt.graph_agrees_with_extractTree
  have hsound := hbuilt.sound
  have hedge : ∀ relation ∈ collection.relations, relation.edge ∈ collection.edges :=
    fun _ => Relation.edge_mem_edgesOf
  have hroot : ∀ relation ∈ collection.relations, relation.derived ≠ .numbered 1 := by
    rw [hrelations]
    decide
  rw [hrelations] at hedge
  have hfirst : Leads collection.edges .derived (.numbered 1) (.numbered 2) :=
    hedge ⟨"nbar", .numbered 1, .numbered 2⟩ (by decide)
  have hsecond : Leads collection.edges .derived (.numbered 2) (.numbered 4) :=
    hedge ⟨"bias", .numbered 2, .numbered 4⟩ (by decide)
  have hknown : .numbered 1 ∈ collection.datasetIds :=
    OrderedMap.contains_iff_mem_keys.1 (hsound.contains_of_leads .derived hfirst).1
  obtain ⟨found, _, hfound, _, hunfolds, _⟩ := hsearches _ hknown
  have hlists := (Graph.closed_ofCollection hsound.toLockstep).listsBeyond_of_reachable hfound
  refine ⟨collection, found, hbuilt, hrelations, hfound, hunfolds, ?_, ?_, ?_⟩
  · exact (hsound.mem_iff_below hlists).2 (.tail (.single hfirst) hsecond)
  · rw [hroots, hsound.extractsLeaf_iff]
    refine ⟨hknown, fun child ⟨relation, hmem, hends⟩ => ?_⟩
    exact hroot relation hmem (congrArg Edge.derived hends)
  · rw [hleaves, hsound.extractsLeaf_iff]
    exact fun hleaf => hleaf.2 _ hfirst

end Collection

end DatasetLineage
