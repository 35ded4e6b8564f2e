import DatasetLineage.Proofs.Collection.Built

/-!
# Which trees can be merged

What a tree states down to a bound, said of its nodes and their depths alone: homes,
mentions, relations and detailed subtrees.  The merge of a tree into a sound collection
succeeds exactly if no node comes again among its own descendants, all nodes in reach
have the direction of the root, and what the tree states contradicts neither itself nor
the collection.  Then the collection holds afterwards what it held before and what the
tree states, and nothing else.
-/

namespace DatasetLineage

/-- Whether nodes of a depth are merged under a bound, where zero is no bound. -/
def Within (bound depth : Nat) : Prop :=
  bound = 0 ∨ depth < bound

/-- Whether nodes of a depth are mentioned: they are merged, or their parents are. -/
def Touched (bound depth : Nat) : Prop :=
  bound = 0 ∨ depth ≤ bound

theorem within_zero {bound : Nat} : Within bound 0 := by
  rw [Within]
  omega

theorem within_succ {bound depth : Nat} :
    Within bound (depth + 1) ↔ bound ≠ 1 ∧ Within (bound - 1) depth := by
  rw [Within, Within]
  omega

theorem touched_zero {bound : Nat} : Touched bound 0 := by
  rw [Touched]
  omega

theorem touched_one {bound : Nat} : Touched bound 1 := by
  rw [Touched]
  omega

theorem touched_succ {bound depth : Nat} :
    Touched bound (depth + 1) ↔ depth = 0 ∨ bound ≠ 1 ∧ Touched (bound - 1) depth := by
  rw [Touched, Touched]
  omega

theorem Levels.ofBound_ne_one {bound : Nat} : ofBound bound ≠ some 1 ↔ bound ≠ 1 := by
  rw [ofBound]
  by_cases hzero : bound = 0
  · simp [hzero]
  · simp [hzero]

theorem Levels.next_ofBound {bound : Nat} (hone : bound ≠ 1) :
    (ofBound bound).next = ofBound (bound - 1) := by
  rw [ofBound, ofBound, next]
  by_cases hzero : bound = 0
  · simp [hzero]
  · have hrest : bound - 1 ≠ 0 := by omega
    simp [hzero, hrest]

namespace Tree

/-- What a tree states down to a bound. -/
inductive States (tree : Tree) (bound : Nat) : Fact → Prop
  | home {depth : Nat} {node : Tree} {home : String} :
      tree.NodeAt depth node → Within bound depth → node.home = some home →
        States tree bound (.home node.id home)
  | known {depth : Nat} {node : Tree} :
      tree.NodeAt depth node → Touched bound depth → States tree bound (.known node.id)
  | relation {depth : Nat} {node : Tree} {link : String × Tree} :
      tree.NodeAt depth node → Within bound depth → link ∈ node.children.links →
        States tree bound
          (.relation ((tree.direction.edge node.id link.2.id).relation link.1))
  /-- A child with detail is the detailed subtree of its edge. -/
  | detail {depth : Nat} {node : Tree} {link : String × Tree} :
      tree.NodeAt depth node → Within bound depth → link ∈ node.children.links →
        link.2.children.hasDetail = true →
          States tree bound (.detail (tree.direction.edge node.id link.2.id) link.2)

def facts (tree : Tree) (bound : Nat) : Set Fact :=
  {fact | tree.States bound fact}

/-- All nodes in reach have the direction of the root. -/
def OneDirection (tree : Tree) (bound : Nat) : Prop :=
  ∀ depth node, tree.NodeAt depth node → Touched bound depth →
    node.direction = tree.direction

theorem oneDirection_iff {tree : Tree} {bound : Nat} :
    tree.OneDirection bound ↔
      ∀ link ∈ tree.children.links, link.2.direction = tree.direction ∧
        (bound ≠ 1 → link.2.OneDirection (bound - 1)) := by
  constructor
  · intro hdirection link hlink
    have hchild := hdirection 1 link.2 (.under hlink (.root _)) touched_one
    refine ⟨hchild, fun hone depth node hnode hdepth => ?_⟩
    rw [hchild]
    exact hdirection (depth + 1) node (.under hlink hnode) (touched_succ.2 (.inr ⟨hone, hdepth⟩))
  · intro hlinks depth node hnode hdepth
    cases hnode with
    | root => rfl
    | under hlink hnode =>
        obtain ⟨hchild, hbelow⟩ := hlinks _ hlink
        rcases touched_succ.1 hdepth with rfl | ⟨hone, hdepth⟩
        · rw [nodeAt_zero.1 hnode]
          exact hchild
        · rw [hbelow hone _ _ hnode hdepth]
          exact hchild

def statesLink (direction : Direction) (parent : DatasetId) (link : String × Tree) : Set Fact :=
  Fact.content (.relation ((direction.edge parent link.2.id).relation link.1)) ∪
    {fact | link.2.children.hasDetail = true ∧
      fact = .detail (direction.edge parent link.2.id) link.2}

def statesNode (id : DatasetId) (home : Option String) : Set Fact :=
  {fact | (∃ value, home = some value ∧ fact = .home id value) ∨ fact = .known id}

theorem statesNode_subset_facts (tree : Tree) (bound : Nat) :
    statesNode tree.id tree.home ⊆ tree.facts bound := by
  rintro fact (⟨value, hhome, rfl⟩ | rfl)
  · exact .home (.root _) within_zero hhome
  · exact .known (.root _) touched_zero

theorem statesLink_subset_facts {tree : Tree} (bound : Nat) {link : String × Tree}
    (hlink : link ∈ tree.children.links) :
    statesLink tree.direction tree.id link ⊆ tree.facts bound := by
  have hparent : tree.States bound (.known tree.id) := .known (.root _) touched_zero
  have hchild : tree.States bound (.known link.2.id) :=
    .known (.under hlink (.root _)) touched_one
  have hrelation : tree.States bound
      (.relation ((tree.direction.edge tree.id link.2.id).relation link.1)) :=
    .relation (.root _) within_zero hlink
  rintro fact (hsaid | ⟨hdetail, rfl⟩)
  · cases hside : tree.direction with
    | sources =>
        rw [hside] at hsaid hrelation
        rcases hsaid with rfl | rfl | rfl
        · exact hrelation
        · exact hchild
        · exact hparent
    | derived =>
        rw [hside] at hsaid hrelation
        rcases hsaid with rfl | rfl | rfl
        · exact hrelation
        · exact hparent
        · exact hchild
  · exact .detail (.root _) within_zero hlink hdetail

theorem facts_subset_facts {tree : Tree} {bound : Nat} (hone : bound ≠ 1)
    {link : String × Tree} (hlink : link ∈ tree.children.links)
    (hdirection : link.2.direction = tree.direction) :
    link.2.facts (bound - 1) ⊆ tree.facts bound := by
  intro fact hbelow
  cases hbelow with
  | home hnode hdepth hhome =>
      exact .home (.under hlink hnode) (within_succ.2 ⟨hone, hdepth⟩) hhome
  | known hnode hdepth =>
      exact .known (.under hlink hnode) (touched_succ.2 (.inr ⟨hone, hdepth⟩))
  | relation hnode hdepth hchild =>
      rw [hdirection]
      exact .relation (.under hlink hnode) (within_succ.2 ⟨hone, hdepth⟩) hchild
  | detail hnode hdepth hchild hdetail =>
      rw [hdirection]
      exact .detail (.under hlink hnode) (within_succ.2 ⟨hone, hdepth⟩) hchild hdetail

/-- What a tree states, its root states, or a link of its root, or the tree below it. -/
theorem mem_facts_iff {tree : Tree} {bound : Nat} (hdirection : tree.OneDirection bound)
    {fact : Fact} :
    fact ∈ tree.facts bound ↔ fact ∈ statesNode tree.id tree.home ∨
      ∃ link ∈ tree.children.links, fact ∈ statesLink tree.direction tree.id link ∨
        bound ≠ 1 ∧ fact ∈ link.2.facts (bound - 1) := by
  have hlinks := oneDirection_iff.1 hdirection
  constructor
  · intro hstates
    cases hstates with
    | home hnode hdepth hhome =>
        cases hnode with
        | root => exact .inl (.inl ⟨_, hhome, rfl⟩)
        | under hlink hnode =>
            obtain ⟨hone, hdepth⟩ := within_succ.1 hdepth
            exact .inr ⟨_, hlink, .inr ⟨hone, .home hnode hdepth hhome⟩⟩
    | known hnode hdepth =>
        cases hnode with
        | root => exact .inl (.inr rfl)
        | @under _ _ _ link hlink hnode =>
            refine .inr ⟨link, hlink, ?_⟩
            rcases touched_succ.1 hdepth with rfl | ⟨hone, hdepth⟩
            · rw [nodeAt_zero.1 hnode]
              refine .inl (.inl ?_)
              cases hside : tree.direction with
              | sources => exact .inr (.inl rfl)
              | derived => exact .inr (.inr rfl)
            · exact .inr ⟨hone, .known hnode hdepth⟩
    | relation hnode hdepth hchild =>
        cases hnode with
        | root => exact .inr ⟨_, hchild, .inl (.inl (.inl rfl))⟩
        | under hlink hnode =>
            obtain ⟨hone, hdepth⟩ := within_succ.1 hdepth
            refine .inr ⟨_, hlink, .inr ⟨hone, ?_⟩⟩
            rw [← (hlinks _ hlink).1]
            exact .relation hnode hdepth hchild
    | detail hnode hdepth hchild hdetail =>
        cases hnode with
        | root => exact .inr ⟨_, hchild, .inl (.inr ⟨hdetail, rfl⟩)⟩
        | under hlink hnode =>
            obtain ⟨hone, hdepth⟩ := within_succ.1 hdepth
            refine .inr ⟨_, hlink, .inr ⟨hone, ?_⟩⟩
            rw [← (hlinks _ hlink).1]
            exact .detail hnode hdepth hchild hdetail
  · rintro (hnode | ⟨link, hlink, hstates | ⟨hone, hbelow⟩⟩)
    · exact statesNode_subset_facts tree bound hnode
    · exact statesLink_subset_facts bound hlink hstates
    · exact facts_subset_facts hone hlink (hlinks link hlink).1 hbelow

end Tree

/-! ## The entries of a tree -/

namespace Entry

theorem mem_facts {entries : List Entry} {stated : Fact} :
    stated ∈ facts entries ↔ .fact stated ∈ entries := by
  rw [facts, List.mem_filterMap]
  constructor
  · rintro ⟨entry, hmem, heq⟩
    cases entry <;> cases heq
    exact hmem
  · intro hmem
    exact ⟨_, hmem, rfl⟩

theorem contents_facts_append (left right : List Entry) :
    Fact.contents (facts (left ++ right)) =
      Fact.contents (facts left) ∪ Fact.contents (facts right) := by
  rw [facts_append, Fact.contents_append]

theorem mem_contents_facts_flatMap {α : Type} {values : List α} {entries : α → List Entry}
    {said : Fact} :
    said ∈ Fact.contents (facts (values.flatMap entries)) ↔
      ∃ value ∈ values, said ∈ Fact.contents (facts (entries value)) := by
  simp only [Fact.contents, Set.mem_ofPred_eq, mem_facts, List.mem_flatMap]
  constructor
  · rintro ⟨stated, ⟨value, hvalue, hentry⟩, hsaid⟩
    exact ⟨value, hvalue, stated, hentry, hsaid⟩
  · rintro ⟨value, hvalue, stated, hentry, hsaid⟩
    exact ⟨stated, ⟨value, hvalue, hentry⟩, hsaid⟩

theorem contents_facts_ofNode (id : DatasetId) (home : Option String) :
    Fact.contents (facts (ofNode id home)) = Tree.statesNode id home := by
  ext said
  cases home <;> simp [facts, ofNode, Fact.contents, Fact.content, Tree.statesNode]

theorem contents_facts_ofLink {direction : Direction} {parent : DatasetId}
    {link : String × Tree} {below : List Entry} :
    Fact.contents (facts (ofLink direction parent link.1 link.2 below)) =
      Tree.statesLink direction parent link ∪ Fact.contents (facts below) := by
  have hfault : Fact.contents (facts (if link.2.direction ≠ direction then
      [.fault (.mixedDirection link.2.id direction link.2.direction)] else [])) = ∅ := by
    split <;> exact Fact.contents_nil
  rw [ofLink, contents_facts_append, hfault, Set.empty_union, facts_cons,
    Fact.contents_append, contents_facts_append, Tree.statesLink, Set.union_assoc]
  congr 2
  · simp [facts, Fact.contents]
  · ext said
    by_cases hdetail : link.2.children.hasDetail = true <;>
      simp [hdetail, facts, Fact.contents, Fact.content]

/-- An entry of a link is a fault, a relation or a subtree, or lies below. -/
theorem mem_ofLink {direction : Direction} {parent : DatasetId} {link : String × Tree}
    {below : List Entry} {entry : Entry} :
    entry ∈ ofLink direction parent link.1 link.2 below ↔
      (link.2.direction ≠ direction ∧
          entry = .fault (.mixedDirection link.2.id direction link.2.direction) ∨
        entry = .fact (.relation ((direction.edge parent link.2.id).relation link.1)) ∨
        link.2.children.hasDetail = true ∧
          entry = .fact (.detail (direction.edge parent link.2.id) link.2)) ∨
      entry ∈ below := by
  rw [ofLink, List.mem_append, List.mem_cons, List.mem_append]
  by_cases hmixed : link.2.direction ≠ direction <;>
    by_cases hdetail : link.2.children.hasDetail = true <;> simp [hmixed, hdetail, or_assoc]

end Entry

namespace Tree

theorem listEntries_eq (levels : Levels) (direction : Direction) (parent : DatasetId)
    (classifier : String) (nodes : List Tree) :
    listEntries levels direction parent classifier nodes =
      nodes.flatMap fun child => Entry.ofLink direction parent classifier child
        (if levels ≠ some 1 then child.entries levels.next else []) := by
  induction nodes with
  | nil => rfl
  | cons child rest ih => rw [listEntries, List.flatMap_cons, ih]

theorem groupsEntries_eq (levels : Levels) (direction : Direction) (parent : DatasetId)
    (groups : List (String × List Tree)) :
    groupsEntries levels direction parent groups =
      (Children.links (.populated groups)).flatMap fun link =>
        Entry.ofLink direction parent link.1 link.2
          (if levels ≠ some 1 then link.2.entries levels.next else []) := by
  induction groups with
  | nil => rfl
  | cons group rest ih =>
      obtain ⟨classifier, nodes⟩ := group
      rw [groupsEntries, ih, listEntries_eq, Children.links, Children.links, Children.groups,
        Children.groups, List.flatMap_cons, List.flatMap_append, List.flatMap_map]

/-- The entries of a tree, link by link. -/
theorem entries_eq (levels : Levels) (tree : Tree) :
    tree.entries levels = Entry.ofNode tree.id tree.home ++
      ((tree.children.links.flatMap fun link =>
          Entry.ofLink tree.direction tree.id link.1 link.2
            (if levels ≠ some 1 then link.2.entries levels.next else [])) ++
        if tree.children.hasDetail then [] else [.leaf tree.direction.opposite tree.id]) := by
  obtain ⟨direction, id, home, children⟩ := tree
  cases children with
  | unknown => rfl
  | empty => rfl
  | populated groups =>
      rw [entries, groupsEntries_eq]
      simp [Tree.id, Tree.home, Tree.direction, Tree.children, Children.hasDetail]

/-- An entry of a tree is one of its root, or of a link of the root without what lies below,
or of the tree below. -/
theorem mem_entries {tree : Tree} {bound : Nat} {entry : Entry} :
    entry ∈ tree.entries (.ofBound bound) ↔
      (entry ∈ Entry.ofNode tree.id tree.home ∨
        ¬ tree.children.hasDetail = true ∧ entry = .leaf tree.direction.opposite tree.id) ∨
      ∃ link ∈ tree.children.links,
        entry ∈ Entry.ofLink tree.direction tree.id link.1 link.2 [] ∨
          bound ≠ 1 ∧ entry ∈ link.2.entries (.ofBound (bound - 1)) := by
  have hbelow : ∀ link : String × Tree,
      entry ∈ (if Levels.ofBound bound ≠ some 1 then
          link.2.entries (Levels.ofBound bound).next else []) ↔
        bound ≠ 1 ∧ entry ∈ link.2.entries (.ofBound (bound - 1)) := by
    intro link
    by_cases hone : bound = 1
    · simp [Levels.ofBound_ne_one, hone]
    · simp [Levels.ofBound_ne_one, Levels.next_ofBound hone, hone]
  have hleaf : entry ∈ (if tree.children.hasDetail = true then []
        else [Entry.leaf tree.direction.opposite tree.id]) ↔
      ¬ tree.children.hasDetail = true ∧ entry = .leaf tree.direction.opposite tree.id := by
    split <;> simp [*]
  rw [entries_eq, List.mem_append, List.mem_append, List.mem_flatMap, hleaf, or_assoc,
    or_comm (a := ∃ link ∈ tree.children.links, _)]
  refine or_congr Iff.rfl (or_congr Iff.rfl (exists_congr fun link => and_congr_right fun _ => ?_))
  rw [Entry.mem_ofLink, Entry.mem_ofLink, hbelow]
  simp

/-- The entries of a tree fail by themselves only where it mixes directions. -/
theorem fault_mem_entries_iff {tree : Tree} {bound : Nat} {error : LineageError} :
    .fault error ∈ tree.entries (.ofBound bound) ↔ ∃ link ∈ tree.children.links,
      link.2.direction ≠ tree.direction ∧
          error = .mixedDirection link.2.id tree.direction link.2.direction ∨
        bound ≠ 1 ∧ .fault error ∈ link.2.entries (.ofBound (bound - 1)) := by
  rw [mem_entries]
  cases tree.home <;> simp [Entry.mem_ofLink, Entry.ofNode]

/-- The entries of a tree try to register the children that have detail. -/
theorem detail_mem_entries_iff {tree : Tree} {bound : Nat} {edge : Edge} {child : Tree} :
    .fact (.detail edge child) ∈ tree.entries (.ofBound bound) ↔
      ∃ link ∈ tree.children.links,
        link.2.children.hasDetail = true ∧
            edge = tree.direction.edge tree.id link.2.id ∧ child = link.2 ∨
          bound ≠ 1 ∧ .fact (.detail edge child) ∈ link.2.entries (.ofBound (bound - 1)) := by
  rw [mem_entries]
  cases tree.home <;> simp [Entry.mem_ofLink, Entry.ofNode]

/-- A tree has a fault among its entries exactly if it mixes directions in reach. -/
theorem oneDirection_iff_entries {tree : Tree} {bound : Nat} :
    tree.OneDirection bound ↔ ∀ error, .fault error ∉ tree.entries (.ofBound bound) := by
  induction tree using Tree.induction generalizing bound with
  | node direction id home children ih =>
      rw [oneDirection_iff]
      constructor
      · intro hlinks error hfault
        obtain ⟨link, hlink, ⟨hmixed, _⟩ | ⟨hone, hbelow⟩⟩ := fault_mem_entries_iff.1 hfault
        · exact hmixed (hlinks link hlink).1
        · exact (ih link hlink).1 ((hlinks link hlink).2 hone) error hbelow
      · intro hnone link hlink
        constructor
        · by_contra hmixed
          exact hnone _ (fault_mem_entries_iff.2 ⟨link, hlink, .inl ⟨hmixed, rfl⟩⟩)
        · intro hone
          refine (ih link hlink).2 fun error hbelow => ?_
          exact hnone error (fault_mem_entries_iff.2 ⟨link, hlink, .inr ⟨hone, hbelow⟩⟩)

/-- The facts among the entries of a tree say what the tree states. -/
theorem contents_entries {tree : Tree} {bound : Nat} (hdirection : tree.OneDirection bound) :
    Fact.contents (Entry.facts (tree.entries (.ofBound bound))) = tree.facts bound := by
  induction tree using Tree.induction generalizing bound with
  | node direction id home children ih =>
      have hlinks := oneDirection_iff.1 hdirection
      have hbelow : ∀ link ∈ children.links, ∀ said,
          said ∈ Fact.contents (Entry.facts (if Levels.ofBound bound ≠ some 1 then
            link.2.entries (Levels.ofBound bound).next else [])) ↔
              bound ≠ 1 ∧ said ∈ link.2.facts (bound - 1) := by
        intro link hlink said
        by_cases hone : bound = 1
        · simp [Levels.ofBound_ne_one, hone, Entry.facts, Fact.contents_nil]
        · rw [if_pos (Levels.ofBound_ne_one.2 hone), Levels.next_ofBound hone,
            ih link hlink ((hlinks link hlink).2 hone)]
          simp [hone]
      have hleaf : Fact.contents (Entry.facts (if children.hasDetail then []
          else [.leaf direction.opposite id])) = ∅ := by
        split <;> exact Fact.contents_nil
      ext said
      rw [mem_facts_iff hdirection, entries_eq, Entry.contents_facts_append,
        Entry.contents_facts_append, Entry.contents_facts_ofNode]
      change said ∈ statesNode id home ∪ (_ ∪ Fact.contents (Entry.facts
        (if children.hasDetail then [] else [.leaf direction.opposite id]))) ↔ _
      rw [hleaf, Set.union_empty, Set.mem_union, Entry.mem_contents_facts_flatMap]
      refine or_congr Iff.rfl (exists_congr fun link => and_congr_right fun hlink => ?_)
      rw [Entry.contents_facts_ofLink, Set.mem_union]
      exact or_congr Iff.rfl (hbelow link hlink said)

end Tree

/-! ## What the merge of a tree accepts -/

namespace Collection

variable {collection merged : Collection} {tree : Tree} {bound : Nat}

/-- The merge of a tree into a sound collection, whatever is done at a node where a cycle
is found. -/
theorem Sound.mergeTreeWith_succeeds_iff (hsound : Sound collection) {check : LeafCheck}
    (hcheck : check.Passes) :
    (∃ merged, mergeTreeWith check tree bound collection = .ok () merged) ↔
      tree.NonRepeating ∧ tree.OneDirection bound ∧
        Consistent (collection.facts ∪ tree.facts bound) := by
  simp only [hsound.mergeTreeWith_eq_ok_iff hcheck, exists_and_left,
    ← Tree.oneDirection_iff_entries, hsound.enterAll_succeeds_iff]
  refine and_congr Iff.rfl (and_congr_right fun hdirection => ?_)
  rw [Tree.contents_entries hdirection]

/-- After the merge of a tree a sound collection holds what the tree states, and what it
held before. -/
theorem Sound.facts_mergeTree (hsound : Sound collection)
    (hresult : mergeTree tree bound collection = .ok () merged) :
    Sound merged ∧ merged.facts = collection.facts ∪ tree.facts bound := by
  rw [mergeTree_eq] at hresult
  obtain ⟨_, hfaults, hfacts⟩ :=
    (hsound.mergeTreeWith_eq_ok_iff LeafCheck.search_passes).1 hresult
  have hentered := hsound.enteredAll hfacts
  have hmerged := hentered.facts_eq
  rw [Tree.contents_entries (Tree.oneDirection_iff_entries.2 hfaults)] at hmerged
  exact ⟨hentered.sound, hmerged⟩

/-- The merge of a tree into a collection that merges have built succeeds exactly if no
node of the tree comes again below itself, the nodes in reach have one direction, and what
the tree states in reach contradicts neither itself nor the collection.  The search for a
cycle at nodes without detail decides nothing: what a finding leads to makes no difference. -/
theorem Built.mergeTree_succeeds_iff (hbuilt : Built collection) (tree : Tree) (bound : Nat) :
    ((∃ merged, collection.afterMerging (mergeTree tree bound) = .ok merged) ↔
      tree.NonRepeating ∧ tree.OneDirection bound ∧
        Consistent (collection.facts ∪ tree.facts bound)) ∧
      ∀ check : LeafCheck, check.Passes →
        mergeTreeWith check tree bound collection = mergeTree tree bound collection := by
  have hsound := hbuilt.sound
  refine ⟨?_, fun check hcheck => ?_⟩
  · simp only [afterMerging_eq_ok, mergeTree_eq]
    exact hsound.mergeTreeWith_succeeds_iff LeafCheck.search_passes
  · have hentries := Entry.enterAllWith_congr hsound hcheck LeafCheck.search_passes
      (tree.entries (.ofBound bound))
    rw [mergeTree_eq, mergeTreeWith, mergeTreeWith]
    change EStateM.bind _ _ _ = EStateM.bind _ _ _
    rw [EStateM.bind, EStateM.bind, Merging.check]
    cases discard tree.childDatasets with
    | ok _ => exact hentries
    | error error => rfl

/-- A tree that reads the other way round what is merged already is refused. -/
theorem mergeTree_succeeds_iff_of_backward_edge :
    ∃ collection, Built collection ∧
      collection.relations = [⟨"nbar", .numbered 1, .numbered 2⟩] ∧
      ¬ ∃ merged, collection.afterMerging (mergeTree
        (.node .sources (.numbered 1) none
          (.populated [("bias", [.placeholder (.numbered 2) .sources])])) 0) = .ok merged := by
  have hbuilt : Built (empty.insertRelation ⟨"nbar", .numbered 1, .numbered 2⟩) :=
    .change (.relation ⟨"nbar", .numbered 1, .numbered 2⟩) .empty rfl
  refine ⟨_, hbuilt, rfl, fun hmerged => ?_⟩
  obtain ⟨_, _, hconsistent⟩ := (hbuilt.mergeTree_succeeds_iff _ 0).1.1 hmerged
  refine hconsistent.acyclic (.numbered 1) (.tail (.single (b := .numbered 2) ?_) ?_)
  · exact ⟨⟨"nbar", .numbered 1, .numbered 2⟩, .inl List.mem_cons_self, rfl⟩
  · have hlink : ("bias", Tree.placeholder (.numbered 2) .sources) ∈ Children.links
        (.populated [("bias", [.placeholder (.numbered 2) .sources])]) := List.mem_cons_self
    exact ⟨_, .inr (.relation (.root _) within_zero hlink), rfl⟩

end Collection

end DatasetLineage
