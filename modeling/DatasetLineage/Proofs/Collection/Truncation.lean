import DatasetLineage.Proofs.Collection.Detail
import DatasetLineage.Proofs.Collection.Snapshot

/-!
# Rebuilding a collection from a tree that is cut off

In a tree that is cut off after some levels, a dataset that is reached by paths of different
lengths comes at different depths, and the further down it stands the fewer levels are left
for it.  If its lineage goes on beyond the cut of the longer path, an edge to it has two
different detailed subtrees, and the tree that was extracted cannot be merged again.  In all
other cases it can, and what comes out are the relations that start above the cut.
-/

namespace DatasetLineage

/-- A dataset is reached by a shorter and a longer path, and its lineage goes on beyond the
cut of the longer one, which leaves detail to the children of the dataset. -/
def CutUnevenly (edges : Set Edge) (direction : Direction) (bound : Nat) (root : DatasetId) :
    Prop :=
  ∃ short long id target, short < long ∧ long + 2 ≤ bound ∧
    ReachesIn edges direction short root id ∧ ReachesIn edges direction long root id ∧
      ReachesIn edges direction (bound - long + 1) id target

namespace Collection

variable {collection : Collection} {direction : Direction} {root : DatasetId} {bound : Nat}

/-! ## Trees cut off after different numbers of levels -/

/-- Above the cuts two trees of a dataset are the same if those of its children are. -/
theorem Sound.treeBelow_eq_treeBelow_iff (hsound : Sound collection) {levels other : Levels}
    (hlevels : levels ≠ some 0) (hother : other ≠ some 0) {id : DatasetId} :
    collection.treeBelow direction levels id = collection.treeBelow direction other id ↔
      ∀ child, Leads collection.edges direction id child →
        collection.treeBelow direction levels.next child =
          collection.treeBelow direction other.next child := by
  constructor
  · intro heq child hstep
    obtain ⟨next, hnext, rfl⟩ := hsound.leads_iff.1 hstep
    have hlink := hsound.mem_links_treeBelow.2 ⟨hlevels, next, hnext, rfl⟩
    rw [heq] at hlink
    obtain ⟨_, found, _, hsame⟩ := hsound.mem_links_treeBelow.1 hlink
    have htrees : collection.treeBelow direction other.next found.id =
        collection.treeBelow direction levels.next next.id := congrArg Prod.snd hsame
    have hids := congrArg Tree.id htrees
    rw [hsound.id_treeBelow, hsound.id_treeBelow] at hids
    rw [← htrees, hids]
  · intro hbelow
    apply hsound.treeBelow_congr hsound rfl rfl
    · exact fun _ => iff_of_false hlevels hother
    · intro next hnext
      exact hbelow next.id (hsound.leads_iff.2 ⟨next, hnext, rfl⟩)

theorem Levels.some_ne_zero {count : Nat} (hcount : 0 < count) : (some count : Levels) ≠ some 0 :=
  fun heq => hcount.ne' (Option.some.inj heq)

/-- More levels make no difference exactly if no path is longer than the fewer levels. -/
theorem Sound.treeBelow_eq_iff_of_lt (hsound : Sound collection) {short long : Nat}
    (hlt : short < long) {id : DatasetId} :
    collection.treeBelow direction (some short) id =
        collection.treeBelow direction (some long) id ↔
      ¬ ∃ target, ReachesIn collection.edges direction (short + 1) id target := by
  induction short generalizing long id with
  | zero =>
      constructor
      · rintro heq ⟨target, hpath⟩
        obtain ⟨child, hstep, _⟩ := reachesIn_succ.1 hpath
        have hdetail := hsound.hasDetail_treeBelow.2 ⟨Levels.some_ne_zero hlt, child, hstep⟩
        rw [← heq] at hdetail
        exact (hsound.hasDetail_treeBelow.1 hdetail).1 rfl
      · intro hnone
        have hleaf : ∀ next, next ∉ collection.neighbours direction id := by
          intro next hnext
          exact hnone ⟨next.id, .head (hsound.leads_iff.2 ⟨next, hnext, rfl⟩) (.refl next.id)⟩
        apply hsound.treeBelow_congr hsound rfl rfl
        · exact fun hneighbours => absurd (List.eq_nil_iff_forall_not_mem.2 hleaf) hneighbours
        · exact fun next hnext => absurd hnext (hleaf next)
  | succ short ih =>
      have hchildren : ∀ child,
          collection.treeBelow direction (some short) child =
              collection.treeBelow direction (some (long - 1)) child ↔
            ¬ ∃ target, ReachesIn collection.edges direction (short + 1) child target :=
        fun child => ih (by omega)
      rw [hsound.treeBelow_eq_treeBelow_iff (Levels.some_ne_zero short.succ_pos)
        (Levels.some_ne_zero (Nat.zero_lt_of_lt hlt))]
      constructor
      · intro hbelow ⟨target, hpath⟩
        obtain ⟨child, hstep, hrest⟩ := reachesIn_succ.1 hpath
        exact (hchildren child).1 (hbelow child hstep) ⟨target, hrest⟩
      · intro hnone child hstep
        apply (hchildren child).2
        intro ⟨target, hrest⟩
        exact hnone ⟨target, .head hstep hrest⟩

/-! ## The detail of a tree that is cut off -/

/-- An edge has detail if its far end stands above the cut and has children. -/
theorem Sound.detail_mem_cut_iff (hsound : Sound collection) {edge : Edge} {tree : Tree} :
    .detail edge tree ∈ (collection.treeBelow direction (some bound) root).facts 0 ↔
      ∃ depth parent child, depth + 2 ≤ bound ∧
        ReachesIn collection.edges direction depth root parent ∧
          Leads collection.edges direction parent child ∧
            edge = direction.edge parent child ∧
              tree = collection.treeBelow direction (some (bound - (depth + 1))) child ∧
                ∃ next, Leads collection.edges direction child next := by
  rw [hsound.detail_mem_facts_treeBelow_iff]
  constructor
  · rintro ⟨depth, parent, child, _, hpath, hstep, hedge, rfl, hdetail⟩
    obtain ⟨hcut, hnext⟩ := hsound.hasDetail_treeBelow.1 hdetail
    have hdepth : bound - (depth + 1) ≠ 0 := fun hzero => hcut (congrArg some hzero)
    exact ⟨depth, parent, child, by omega, hpath, hstep, hedge, rfl, hnext⟩
  · rintro ⟨depth, parent, child, hdepth, hpath, hstep, hedge, rfl, hnext⟩
    have hallows : Levels.Allows (some bound) (depth + 1) := by
      intro count hcount
      cases hcount
      omega
    have hcut : (some (bound - (depth + 1)) : Levels) ≠ some 0 := Levels.some_ne_zero (by omega)
    exact ⟨depth, parent, child, hallows, hpath, hstep, hedge, rfl,
      hsound.hasDetail_treeBelow.2 ⟨hcut, hnext⟩⟩

/-- An edge keeps its detail at two depths unless lineage goes on beyond the lower cut. -/
theorem Sound.detail_eq_of_lt (hsound : Sound collection)
    (heven : ¬ CutUnevenly collection.edges direction bound root) {short long : Nat}
    (hlt : short < long) (hlong : long + 2 ≤ bound) {parent child : DatasetId}
    (hshortPath : ReachesIn collection.edges direction short root parent)
    (hlongPath : ReachesIn collection.edges direction long root parent)
    (hstep : Leads collection.edges direction parent child) :
    collection.treeBelow direction (some (bound - (long + 1))) child =
      collection.treeBelow direction (some (bound - (short + 1))) child := by
  have hlevels : bound - (long + 1) < bound - (short + 1) := by omega
  have hleft : bound - (long + 1) + 1 = bound - long := by omega
  rw [hsound.treeBelow_eq_iff_of_lt hlevels, hleft]
  intro ⟨target, hrest⟩
  exact heven ⟨short, long, parent, target, hlt, hlong, hshortPath, hlongPath, .head hstep hrest⟩

/-- The tree that is cut off contradicts itself exactly if it is cut unevenly. -/
theorem Sound.consistent_cut_iff (hsound : Sound collection) :
    Consistent ((collection.treeBelow direction (some bound) root).facts 0) ↔
      ¬ CutUnevenly collection.edges direction bound root := by
  rw [hsound.consistent_iff_details (hsound.backs_treeBelow direction _ root)]
  constructor
  · rintro hdetails ⟨short, long, id, target, hlt, hlong, hshortPath, hlongPath, hbeyond⟩
    obtain ⟨child, hstep, hrest⟩ := reachesIn_succ.1 hbeyond
    have hleft : bound - long = bound - (long + 1) + 1 := by omega
    rw [hleft] at hrest
    obtain ⟨next, hnext, _⟩ := reachesIn_succ.1 hrest
    have hlower := hsound.detail_mem_cut_iff.2
      ⟨long, id, child, hlong, hlongPath, hstep, rfl, rfl, next, hnext⟩
    have hshort : short + 2 ≤ bound := by omega
    have hupper := hsound.detail_mem_cut_iff.2
      ⟨short, id, child, hshort, hshortPath, hstep, rfl, rfl, next, hnext⟩
    have hlevels : bound - (long + 1) < bound - (short + 1) := by omega
    exact (hsound.treeBelow_eq_iff_of_lt hlevels).1 (hdetails _ _ _ hlower hupper) ⟨target, hrest⟩
  · intro heven edge left right hleft hright
    obtain ⟨depth, parent, child, hdepth, hpath, hstep, rfl, rfl, _⟩ :=
      hsound.detail_mem_cut_iff.1 hleft
    obtain ⟨other, otherParent, otherChild, hother, hotherPath, _, hedge, rfl, _⟩ :=
      hsound.detail_mem_cut_iff.1 hright
    obtain ⟨rfl, rfl⟩ := Direction.edge_injective hedge
    rcases Nat.lt_trichotomy depth other with hlt | rfl | hgt
    · exact (hsound.detail_eq_of_lt heven hlt hother hpath hotherPath hstep).symm
    · rfl
    · exact hsound.detail_eq_of_lt heven hgt hdepth hotherPath hpath hstep

/-! ## Rebuilding -/

/-- A tree that is cut off can be merged into an empty collection exactly if it is not cut
unevenly. -/
theorem Sound.ofTree_cut_succeeds_iff (hsound : Sound collection) :
    (∃ rebuilt, ofTree (collection.treeBelow direction (some bound) root) 0 = .ok rebuilt) ↔
      ¬ CutUnevenly collection.edges direction bound root := by
  simp only [ofTree, afterMerging_eq_ok, mergeTree_eq]
  rw [sound_empty.mergeTreeWith_succeeds_iff LeafCheck.search_passes, facts_empty,
    Set.empty_union, hsound.consistent_cut_iff]
  constructor
  · exact fun hmergeable => hmergeable.2.2
  · exact fun heven => ⟨hsound.nonRepeating_treeBelow, hsound.oneDirection_treeBelow 0, heven⟩

/-- A tree down to some levels can always be extracted, and a collection can be rebuilt from
it unless some dataset stands at two depths of it and has lineage beyond the cut of the lower
one.  What is rebuilt are the relations whose nearer end is reached above the cut. -/
theorem Built.extractTreeToDepth_round_trip (hbuilt : Built collection) (root : DatasetId)
    (direction : Direction) {bound : Nat} (hbound : 0 < bound) :
    ∃ tree, collection.extractTreeToDepth root direction bound = .ok tree ∧
      ((∃ rebuilt, Collection.ofTree tree 0 = .ok rebuilt) ↔
        ¬ CutUnevenly collection.edges direction bound root) ∧
      ∀ rebuilt, Collection.ofTree tree 0 = .ok rebuilt → ∀ relation,
        relation ∈ rebuilt.relations ↔ relation ∈ collection.relations ∧
          ∃ depth parent child, depth < bound ∧
            ReachesIn collection.edges direction depth root parent ∧
              relation.edge = direction.edge parent child := by
  have hsound := hbuilt.sound
  have hlevels : Levels.ofBound bound = some bound := if_neg hbound.ne'
  refine ⟨_, hsound.extractTreeToDepth_eq root direction bound, ?_⟩
  rw [hlevels]
  refine ⟨hsound.ofTree_cut_succeeds_iff, fun rebuilt hrebuilt relation => ?_⟩
  obtain ⟨_, hfacts⟩ := sound_empty.facts_mergeTree (afterMerging_eq_ok.1 hrebuilt)
  rw [← relation_mem_facts, hfacts, facts_empty, Set.empty_union,
    hsound.relation_mem_facts_treeBelow_iff_shows, hsound.shows_treeBelow_iff]
  apply and_congr_right
  intro hrelation
  constructor
  · rintro ⟨depth, parent, child, hallows, hpath, _, hedge⟩
    exact ⟨depth, parent, child, hallows bound rfl, hpath, hedge.symm⟩
  · rintro ⟨depth, parent, child, hdepth, hpath, hedge⟩
    have hstep : Leads collection.edges direction parent child := by
      rw [Leads, ← hedge]
      exact Relation.edge_mem_edgesOf hrelation
    refine ⟨depth, parent, child, ?_, hpath, hstep, hedge.symm⟩
    intro count hcount
    cases hcount
    exact hdepth

/-- A chain cut off in its middle. -/
theorem extractTreeToDepth_round_trip_of_chain :
    ∃ collection tree rebuilt, Built collection ∧
      collection.relations =
        [⟨"nbar", .numbered 1, .numbered 2⟩, ⟨"bias", .numbered 2, .numbered 3⟩] ∧
      collection.extractTreeToDepth (.numbered 1) .derived 1 = .ok tree ∧
      ofTree tree 0 = .ok rebuilt ∧
      ⟨"nbar", .numbered 1, .numbered 2⟩ ∈ rebuilt.relations := by
  obtain ⟨collection, hbuilt, hcontents⟩ := @exists_built_of_ascending
    [⟨"nbar", .numbered 1, .numbered 2⟩, ⟨"bias", .numbered 2, .numbered 3⟩]
    (by decide) (by decide)
  obtain ⟨tree, htree, hsucceeds, hrelations⟩ :=
    hbuilt.extractTreeToDepth_round_trip (.numbered 1) .derived Nat.one_pos
  have heven : ¬ CutUnevenly collection.edges .derived 1 (.numbered 1) :=
    fun ⟨_, _, _, _, _, hlong, _⟩ => by omega
  obtain ⟨rebuilt, hrebuilt⟩ := hsucceeds.2 heven
  refine ⟨collection, tree, rebuilt, hbuilt, hcontents, htree, hrebuilt,
    (hrelations rebuilt hrebuilt _).2 ?_⟩
  rw [hcontents]
  exact ⟨List.mem_cons_self, 0, .numbered 1, .numbered 2, Nat.one_pos, .refl _, rfl⟩

/-- A dataset that is reached over one edge and over two, with lineage going on below it: the
tree of the root down to four levels cannot be merged. -/
theorem extractTreeToDepth_round_trip_fails_of_shortcut :
    ∃ collection tree, Built collection ∧
      collection.relations = [⟨"nbar", .numbered 1, .numbered 3⟩,
        ⟨"nbar", .numbered 1, .numbered 2⟩, ⟨"nbar", .numbered 2, .numbered 3⟩,
        ⟨"nbar", .numbered 3, .numbered 4⟩, ⟨"nbar", .numbered 4, .numbered 5⟩,
        ⟨"nbar", .numbered 5, .numbered 6⟩] ∧
      collection.extractTreeToDepth (.numbered 1) .derived 4 = .ok tree ∧
      ¬ ∃ rebuilt, ofTree tree 0 = .ok rebuilt := by
  let relations : List Relation := [⟨"nbar", .numbered 1, .numbered 3⟩,
    ⟨"nbar", .numbered 1, .numbered 2⟩, ⟨"nbar", .numbered 2, .numbered 3⟩,
    ⟨"nbar", .numbered 3, .numbered 4⟩, ⟨"nbar", .numbered 4, .numbered 5⟩,
    ⟨"nbar", .numbered 5, .numbered 6⟩]
  obtain ⟨collection, hbuilt, hrelations⟩ :=
    @exists_built_of_ascending relations (by decide) (by decide)
  have huneven : CutUnevenly collection.edges .derived 4 (.numbered 1) := by
    have hleads : ∀ relation ∈ relations,
        Leads collection.edges .derived relation.source relation.derived := by
      intro relation hrelation
      rw [edges, hrelations]
      exact Relation.edge_mem_edgesOf hrelation
    have hdirect := hleads ⟨"nbar", .numbered 1, .numbered 3⟩ (by decide)
    have hdetour := hleads ⟨"nbar", .numbered 1, .numbered 2⟩ (by decide)
    have hback := hleads ⟨"nbar", .numbered 2, .numbered 3⟩ (by decide)
    have hfourth := hleads ⟨"nbar", .numbered 3, .numbered 4⟩ (by decide)
    have hfifth := hleads ⟨"nbar", .numbered 4, .numbered 5⟩ (by decide)
    have hsixth := hleads ⟨"nbar", .numbered 5, .numbered 6⟩ (by decide)
    exact ⟨1, 2, .numbered 3, .numbered 6, by decide, by decide, .head hdirect (.refl _),
      .head hdetour (.head hback (.refl _)), .head hfourth (.head hfifth (.head hsixth (.refl _)))⟩
  have htree := hbuilt.sound.extractTreeToDepth_eq (.numbered 1) .derived 4
  exact ⟨collection, _, hbuilt, hrelations, htree,
    fun hrebuilt => hbuilt.sound.ofTree_cut_succeeds_iff.1 hrebuilt huneven⟩

end Collection

end DatasetLineage
