import DatasetLineage.Proofs.Store.Retrieval

/-!
# Removing lineage

A removal walks the stored lineage below a dataset layer by layer and follows no dataset
twice.  A dataset that comes again further down has been followed before, with more levels
left, so its edges are listed already.  What is removed is therefore the relations that the
tree of the dataset shows, down to the same bound, and no others.
-/

namespace DatasetLineage

namespace Index

section Layers

variable {stored : Collection} {direction : Direction} {levels : Levels}
  {unseen layer : List DatasetId} {done : Set DatasetId}

/-! ## Layers -/

def linksOf (stored : Collection) (direction : Direction) (layer : List DatasetId) :
    List (DatasetId × DatasetId) :=
  layer.flatMap fun parent => (stored.neighbours direction parent).map fun next => (parent, next.id)

theorem mem_linksOf (hstored : Collection.Lockstep stored) {link : DatasetId × DatasetId} :
    link ∈ linksOf stored direction layer ↔
      link.1 ∈ layer ∧ Leads stored.edges direction link.1 link.2 := by
  obtain ⟨parent, child⟩ := link
  simp only [linksOf, List.mem_flatMap, List.mem_map, Prod.mk.injEq]
  rw [hstored.leads_iff]
  constructor
  · rintro ⟨_, hparent, next, hnext, rfl, rfl⟩
    exact ⟨hparent, next, hnext, rfl⟩
  · rintro ⟨hparent, next, hnext, rfl⟩
    exact ⟨parent, hparent, next, hnext, rfl, rfl⟩

/-- The unseen datasets that a layer leads to, and what is unseen then. -/
def claimedBy (stored : Collection) (direction : Direction) (layer unseen : List DatasetId) :
    List DatasetId × List DatasetId :=
  claim ((linksOf stored direction layer).map (·.2)) unseen

theorem mem_claimedBy (hstored : Collection.Lockstep stored) {parent child : DatasetId}
    (hparent : parent ∈ layer) (hstep : Leads stored.edges direction parent child)
    (hunseen : child ∈ unseen) : child ∈ (claimedBy stored direction layer unseen).1 :=
  mem_claimed.2 ⟨List.mem_map.2
    ⟨(parent, child), (mem_linksOf hstored).2 ⟨hparent, hstep⟩, rfl⟩, hunseen⟩

/-- The layers up to now: what the datasets followed before lead to was followed or is part of
the layer, and whatever an edge leads to was followed, is part of the layer or unseen. -/
structure Layered (stored : Collection) (direction : Direction) (done : Set DatasetId)
    (layer unseen : List DatasetId) : Prop where
  followed : ∀ parent ∈ done, ∀ child, Leads stored.edges direction parent child →
    child ∈ done ∨ child ∈ layer
  accounted : ∀ parent child, Leads stored.edges direction parent child →
    child ∈ done ∨ child ∈ layer ∨ child ∈ unseen

theorem Layered.next (hlayered : Layered stored direction done layer unseen)
    (hstored : Collection.Lockstep stored) :
    Layered stored direction (done ∪ {id | id ∈ layer})
      (claimedBy stored direction layer unseen).1 (claimedBy stored direction layer unseen).2 where
  followed := by
    intro parent hparent child hstep
    cases hparent with
    | inl hdone => exact .inl (hlayered.followed parent hdone child hstep)
    | inr hlayer =>
        rcases hlayered.accounted parent child hstep with hdone | hsame | hunseen
        · exact .inl (.inl hdone)
        · exact .inl (.inr hsame)
        · exact .inr (mem_claimedBy hstored hlayer hstep hunseen)
  accounted := by
    intro parent child hstep
    rw [claimedBy, mem_claimed, mem_left_unseen]
    rcases hlayered.accounted parent child hstep with hdone | hlayer | hunseen
    · exact .inl (.inl hdone)
    · exact .inl (.inr hlayer)
    · tauto

theorem edgesBelow_nil (levels : Levels) (unseen : List DatasetId) :
    edgesBelow stored direction levels unseen [] = [] := by
  rw [edgesBelow]
  simp [claim]

/-- Above the cut the edges of a layer come first, and then those of the layer it claims. -/
theorem edgesBelow_eq (hcut : levels ≠ some 0) :
    edgesBelow stored direction levels unseen layer =
      (linksOf stored direction layer).map (fun link => direction.edge link.1 link.2) ++
        edgesBelow stored direction levels.next (claimedBy stored direction layer unseen).2
          (claimedBy stored direction layer unseen).1 := by
  rw [edgesBelow, if_neg hcut]
  by_cases hnone : (claimedBy stored direction layer unseen).1 = []
  · rw [hnone, edgesBelow_nil, List.append_nil]
    exact if_pos hnone
  · exact if_neg hnone

/-- Layers come to an end, since a layer that goes on leaves less unseen. -/
theorem layers_induction {motive : Levels → List DatasetId → List DatasetId → Prop}
    (step : ∀ levels unseen layer,
      ((claimedBy stored direction layer unseen).1 ≠ [] →
        motive levels.next (claimedBy stored direction layer unseen).2
          (claimedBy stored direction layer unseen).1) → motive levels unseen layer)
    (levels : Levels) (unseen layer : List DatasetId) : motive levels unseen layer := by
  induction hlength : unseen.length using Nat.strong_induction_on
    generalizing levels unseen layer with
  | _ length ih =>
      apply step
      intro hclaimed
      exact ih _ (hlength ▸ length_claim_lt hclaimed) levels.next _ _ rfl

/-- Every edge that is listed is in reach of a dataset of the layer. -/
theorem edgesBelow_sound (hstored : Collection.Lockstep stored) {edge : Edge} :
    edge ∈ edgesBelow stored direction levels unseen layer →
      ∃ root ∈ layer, edge ∈ edgesWithin stored.edges direction levels root := by
  induction levels, unseen, layer using @layers_induction stored direction with
  | step levels unseen layer ih =>
      intro hedge
      by_cases hcut : levels = some 0
      · rw [edgesBelow, if_pos hcut] at hedge
        cases hedge
      · rw [edgesBelow_eq hcut, List.mem_append, List.mem_map] at hedge
        rcases hedge with ⟨link, hlink, rfl⟩ | hbelow
        · obtain ⟨hparent, hstep⟩ := (mem_linksOf hstored).1 hlink
          exact ⟨link.1, hparent, edge_mem_edgesWithin hcut hstep⟩
        · have hclaimed : (claimedBy stored direction layer unseen).1 ≠ [] := by
            intro hnone
            rw [hnone, edgesBelow_nil] at hbelow
            cases hbelow
          obtain ⟨child, hchild, hwithin⟩ := ih hclaimed hbelow
          obtain ⟨link, hlink, rfl⟩ := List.mem_map.1 (mem_claimed.1 hchild).1
          obtain ⟨hparent, hstep⟩ := (mem_linksOf hstored).1 hlink
          exact ⟨link.1, hparent, edgesWithin_next_subset hcut hstep hwithin⟩

/-- Every edge in reach of a dataset followed before or of the layer is listed, unless it
starts from a dataset followed before.  Along a path, a child that the layer does not claim
was met earlier, and the rest of the path goes on from there. -/
theorem Layered.complete (hstored : Collection.Lockstep stored)
    (hlayered : Layered stored direction done layer unseen) {depth : Nat}
    {origin parent child : DatasetId} (horigin : origin ∈ done ∨ origin ∈ layer)
    (hallows : levels.Allows (depth + 1))
    (hpath : ReachesIn stored.edges direction depth origin parent)
    (hstep : Leads stored.edges direction parent child) :
    parent ∈ done ∨
      direction.edge parent child ∈ edgesBelow stored direction levels unseen layer := by
  induction levels, unseen, layer using @layers_induction stored direction
    generalizing done depth origin with
  | step levels unseen layer ih =>
      have hcut : levels ≠ some 0 := (Levels.allows_succ.1 hallows).1
      have hlisted : parent ∈ layer →
          direction.edge parent child ∈ edgesBelow stored direction levels unseen layer := by
        intro hparent
        rw [edgesBelow_eq hcut]
        exact List.mem_append_left _ (List.mem_map.2
          ⟨(parent, child), (mem_linksOf hstored).2 ⟨hparent, hstep⟩, rfl⟩)
      induction depth generalizing origin with
      | zero =>
          rw [reachesIn_zero] at hpath
          subst hpath
          exact horigin.imp_right hlisted
      | succ depth ihDepth =>
          obtain ⟨next, hnext, hrest⟩ := reachesIn_succ.1 hpath
          have hshorter : levels.Allows (depth + 1) := hallows.mono (Nat.le_succ _)
          by_cases hmet : next ∈ done ∨ next ∈ layer
          · exact ihDepth hmet hshorter hrest
          · have hlayer : origin ∈ layer := by
              apply horigin.resolve_left
              intro hdone
              exact hmet (hlayered.followed origin hdone next hnext)
            have hunseen : next ∈ unseen := by
              have haccounted := hlayered.accounted origin next hnext
              tauto
            have hclaimed := mem_claimedBy hstored hlayer hnext hunseen
            have hbelow := ih (List.ne_nil_of_mem hclaimed) (hlayered.next hstored)
              (.inr hclaimed) (Levels.allows_succ.1 hallows).2 hrest
            rcases hbelow with (hdone | hparent) | hedge
            · exact .inl hdone
            · exact .inr (hlisted hparent)
            · right
              rw [edgesBelow_eq hcut]
              exact List.mem_append_right _ hedge

theorem layered_start (hstored : Collection.Lockstep stored) (root : DatasetId) :
    Layered stored direction ∅ [root] (without stored.datasetIds root) where
  followed := fun _ hparent => absurd hparent (Set.notMem_empty _)
  accounted := by
    intro parent child hstep
    have hknown := (hstored.contains_of_leads direction hstep).2
    rw [mem_without, Collection.datasetIds, ← OrderedMap.contains_iff_mem_keys,
      List.mem_singleton]
    by_cases heq : child = root
    · exact .inr (.inl heq)
    · exact .inr (.inr ⟨hknown, heq⟩)

/-- The walk over layers lists the edges in reach of its root. -/
theorem mem_edgesBelow_iff (hstored : Collection.Lockstep stored) {root : DatasetId}
    {edge : Edge} :
    edge ∈ edgesBelow stored direction levels (without stored.datasetIds root) [root] ↔
      edge ∈ edgesWithin stored.edges direction levels root := by
  constructor
  · intro hedge
    obtain ⟨origin, horigin, hwithin⟩ := edgesBelow_sound hstored hedge
    rw [List.mem_singleton.1 horigin] at hwithin
    exact hwithin
  · rintro ⟨depth, parent, child, hallows, hpath, hstep, rfl⟩
    have hcomplete := (layered_start hstored root).complete hstored (.inr List.mem_cons_self)
      hallows hpath hstep
    exact hcomplete.resolve_left (Set.notMem_empty parent)

end Layers

/-! ## What is removed -/

section Removed

variable {store : MemoryStore} {direction : Direction} {id : DatasetId} {bound : Nat}
  {collected stored : Collection}

/-- A store without some of its relations, and with everything else. -/
structure Removed (store : MemoryStore) (doomed : List Edge) (after : MemoryStore) : Prop where
  relations : after.relations = store.relations.filter fun relation => relation.edge ∉ doomed
  homes : after.homes = store.homes
  datasets : after.datasets = store.datasets

theorem removeRelations_eq_ok (store : MemoryStore) (doomed : List Edge) :
    ∃ after, MemoryStore.removeRelations doomed store =
        .ok (store.relations.countP fun relation => relation.edge ∈ doomed) after ∧
      Removed store doomed after := by
  have hcount : store.relations.length -
      (store.relations.filter fun relation => relation.edge ∉ doomed).length =
        store.relations.countP fun relation => relation.edge ∈ doomed := by
    have hsplit := List.length_eq_countP_add_countP
      (fun relation : Relation => decide (relation.edge ∈ doomed)) (l := store.relations)
    rw [List.countP_eq_length_filter (p := fun relation => decide ¬ _)] at hsplit
    simp only [decide_eq_true_eq] at hsplit
    omega
  rw [← hcount]
  exact ⟨_, rfl, rfl, rfl, rfl⟩

section List

variable {doomed : List Edge} {removed : List Relation}

theorem Removed.relations_eq {after : MemoryStore} (hremoved : Removed store doomed after)
    (hdoomed : ∀ relation ∈ store.relations,
      relation.edge ∈ doomed ↔ relation ∈ removed) :
    after.relations = store.relations.filter fun relation => relation ∉ removed := by
  rw [hremoved.relations]
  apply List.filter_congr
  intro relation hmem
  simp only [hdoomed relation hmem]

theorem countP_doomed (hstored : store.relations.Nodup) (hnodup : removed.Nodup)
    (hsubset : removed ⊆ store.relations)
    (hdoomed : ∀ relation ∈ store.relations,
      relation.edge ∈ doomed ↔ relation ∈ removed) :
    (store.relations.countP fun relation => relation.edge ∈ doomed) = removed.length := by
  rw [List.countP_eq_length_filter]
  apply List.Perm.length_eq
  rw [List.perm_ext_iff_of_nodup (hstored.filter _) hnodup]
  intro relation
  rw [List.mem_filter, decide_eq_true_eq]
  constructor
  · intro ⟨hmem, hedge⟩
    exact (hdoomed relation hmem).1 hedge
  · intro hmem
    exact ⟨hsubset hmem, (hdoomed relation (hsubset hmem)).2 hmem⟩

end List

/-- A removal takes away the edges that the walk over layers lists, and counts them. -/
theorem remove_eq_ok
    (hcollected : store.fetchDirected direction (.ofBound bound) id = .ok collected)
    {doomed : List Edge}
    (hdoomed : edgesBelow collected direction (.ofBound bound)
      (without collected.datasetIds id) [id] = doomed) :
    ∃ after, remove id direction bound store =
        .ok (store.relations.countP fun relation => relation.edge ∈ doomed) after ∧
      Removed store doomed after := by
  have hremove : remove id direction bound store =
      (if doomed.isEmpty then pure 0 else MemoryStore.removeRelations doomed) store := by
    change EStateM.bind
      (MonadExcept.ofExcept (store.fetchDirected direction (.ofBound bound) id)) _ store = _
    rw [hcollected, ← hdoomed]
    rfl
  rw [hremove]
  cases doomed with
  | nil =>
      refine ⟨store, ?_, ?_, rfl, rfl⟩
      · simp only [List.not_mem_nil, decide_false, List.countP_false]
        rfl
      · simp
  | cons edge rest => exact removeRelations_eq_ok store (edge :: rest)

theorem remove_eq_error {failure : Failure}
    (hfailed : store.fetchDirected direction (.ofBound bound) id = .error failure) :
    remove id direction bound store = .error failure store := by
  change EStateM.bind
    (MonadExcept.ofExcept (store.fetchDirected direction (.ofBound bound) id)) _ store = _
  rw [hfailed]
  rfl

end Removed

/-- All bounds mean the same edges, and a removal takes away just these.  From a store without
a cycle a removal succeeds, and what it removes are the relations that the tree of the dataset shows
down to the same bound, which are those of a collection rebuilt from the whole tree down to
that bound.  It returns their number.  The other relations keep their classifiers and their
order, homes and datasets stay, and the dataset has no neighbour left in that direction. -/
theorem Visited.remove_shown {store : MemoryStore} (hvisited : Visited store)
    (hacyclic : Acyclic store.edges) (id : DatasetId) (direction : Direction) (bound : Nat) :
    ∃ tree stored whole rebuilt after, getTree direction id bound store = .ok tree ∧
      Collection.ofSnapshot store.snapshot = .ok stored ∧
      stored.extractTree id direction = .ok whole ∧
      Collection.ofTree whole bound = .ok rebuilt ∧
      remove id direction bound store = .ok rebuilt.relations.length after ∧
      rebuilt.relations.Nodup ∧ rebuilt.relations ⊆ store.relations ∧
      (∀ relation, relation ∈ rebuilt.relations ↔ tree.Shows relation) ∧
      after.relations = store.relations.filter (fun relation => relation ∉ rebuilt.relations) ∧
      after.homes = store.homes ∧ after.datasets = store.datasets ∧
      ∀ child, direction.edge id child ∉ after.edges := by
  have hsound : store.Sound := ⟨hvisited.indexed, hacyclic⟩
  obtain ⟨collected, hcollected⟩ := hsound.fetchDirected_succeeds direction (.ofBound bound) id
  obtain ⟨stored, hstored, hmirror⟩ := hsound.exists_mirror
  have hexcerpt := MemoryStore.excerpt_of_fetchDirected hcollected
  obtain ⟨rebuilt, hrebuilt, hdistinct, hrelations⟩ :=
    hmirror.sound.ofTree_treeBelow direction id bound
  obtain ⟨after, hremove, hremoved⟩ := remove_eq_ok hcollected rfl
  have hdoomed : ∀ relation ∈ store.relations,
      relation.edge ∈ edgesBelow collected direction (.ofBound bound)
        (without collected.datasetIds id) [id] ↔ relation ∈ rebuilt.relations := by
    intro relation hmem
    rw [mem_edgesBelow_iff hexcerpt.built.sound.toLockstep, hexcerpt.edgesWithin_eq hmirror,
      hrelations, hmirror.relations]
    simp [hmem]
  have hsubset : rebuilt.relations ⊆ store.relations := by
    intro relation hmem
    rw [← hmirror.relations]
    exact ((hrelations relation).1 hmem).1
  have hnodup : rebuilt.relations.Nodup := hdistinct.of_map _
  have hkept := hremoved.relations_eq hdoomed
  rw [countP_doomed (hsound.indexed.distinct.of_map _) hnodup hsubset hdoomed] at hremove
  refine ⟨_, stored, _, rebuilt, after, getTree_eq_ok hcollected, hstored,
    hmirror.sound.extractTree_eq id, hrebuilt, hremove, hnodup, hsubset, ?_, hkept,
    hremoved.homes, hremoved.datasets, ?_⟩
  · intro relation
    rw [hrelations, hexcerpt.shows_iff hmirror]
  · rintro child ⟨relation, hmem, hedge⟩
    rw [hkept, List.mem_filter, decide_eq_true_eq] at hmem
    have hstep : Leads stored.edges direction id child := by
      rw [Leads, hmirror.edges, ← hedge]
      exact Relation.edge_mem_edgesOf hmem.1
    apply hmem.2
    rw [hrelations, hmirror.relations, hedge]
    exact ⟨hmem.1, edge_mem_edgesWithin Levels.ofBound_ne_zero hstep⟩

/-- The first of two relations in a row is removed. -/
theorem remove_shown_of_chain :
    ∃ store tree count after, Visited store ∧ Acyclic store.edges ∧
      store.relations = [⟨"nbar", .numbered 1, .numbered 2⟩, ⟨"bias", .numbered 2, .numbered 3⟩] ∧
      getTree .derived (.numbered 1) 1 store = .ok tree ∧
      remove (.numbered 1) .derived 1 store = .ok count after ∧
      (∀ relation ∈ store.relations, relation ∈ after.relations ↔ ¬ tree.Shows relation) ∧
      ⟨"nbar", .numbered 1, .numbered 2⟩ ∉ after.relations := by
  let seed : Snapshot := ⟨OrderedMap.empty,
    [⟨"nbar", .numbered 1, .numbered 2⟩, ⟨"bias", .numbered 2, .numbered 3⟩]⟩
  have hvisited : Visited _ := .seeded seed rfl
  have hacyclic : Acyclic (edgesOf seed.relations) := acyclic_of_ascending (by decide)
  obtain ⟨tree, stored, whole, rebuilt, after, htree, _, _, _, hremove, _, _, hshown, hkept, _, _,
    hnone⟩ := hvisited.remove_shown hacyclic (.numbered 1) .derived 1
  refine ⟨_, tree, _, after, hvisited, hacyclic, rfl, htree, hremove, ?_, ?_⟩
  · intro relation hmem
    rw [hkept, List.mem_filter, decide_eq_true_eq, hshown]
    exact and_iff_right hmem
  · exact fun hmem => hnone (.numbered 2) (Relation.edge_mem_edgesOf hmem)

/-- From a dataset on a stored cycle nothing can be removed. -/
theorem remove_fails_on_cycle :
    Visited tangled ∧
      ¬ ∃ count after, remove (.numbered 1) .derived 1 tangled = .ok count after := by
  refine ⟨visited_tangled, ?_⟩
  rintro ⟨count, after, hremove⟩
  cases hfetched : tangled.fetchDirected .derived (.ofBound 1) (.numbered 1) with
  | error failure => cases (remove_eq_error hfetched).symm.trans hremove
  | ok collected => exact not_fetchDirected_tangled .derived (.ofBound 1) ⟨collected, hfetched⟩

end Index

end DatasetLineage
