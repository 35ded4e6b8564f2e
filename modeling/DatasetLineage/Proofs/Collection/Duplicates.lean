import DatasetLineage.Proofs.Collection.Comparison
import DatasetLineage.Proofs.Collection.Interrupted

/-!
# Which subtrees clash

A collection remembers the first detailed subtree that is given for an edge, for as long as
it lives, and refuses any other.  What is given along the way is followed here through all
the merges that build a collection, one tree or collection after the other: a subtree is
registered exactly if it was given and has groups of children, and a merge is refused for two
subtrees of an edge only if two that differ were given.  Unexplored nodes and leaves can come
before, between and after them.

Groups count as detail even if no child is in them, so a node below which nothing is can be
one of the two.
-/

namespace DatasetLineage

/-! ## The subtrees that a tree gives -/

namespace Tree

/-- The subtrees that a tree gives for edges down to a bound: every child of a node in reach,
be it detailed or not. -/
def subtrees (tree : Tree) (bound : Nat) : Set (Edge × Tree) :=
  {given | ∃ depth node link, tree.NodeAt depth node ∧ Within bound depth ∧
    link ∈ node.children.links ∧ given = (node.direction.edge node.id link.2.id, link.2)}

theorem mem_subtrees_iff {tree : Tree} {bound : Nat} {given : Edge × Tree} :
    given ∈ tree.subtrees bound ↔ ∃ link ∈ tree.children.links,
      given = (tree.direction.edge tree.id link.2.id, link.2) ∨
        bound ≠ 1 ∧ given ∈ link.2.subtrees (bound - 1) := by
  constructor
  · rintro ⟨depth, node, link, hnode, hdepth, hlink, rfl⟩
    cases hnode with
    | root => exact ⟨link, hlink, .inl rfl⟩
    | @under _ _ depth above habove hnode =>
        obtain ⟨hone, hdepth⟩ := within_succ.1 hdepth
        exact ⟨above, habove, .inr ⟨hone, depth, node, link, hnode, hdepth, hlink, rfl⟩⟩
  · rintro ⟨above, habove, rfl | ⟨hone, depth, node, link, hnode, hdepth, hlink, rfl⟩⟩
    · exact ⟨0, tree, above, .root _, within_zero, habove, rfl⟩
    · exact ⟨depth + 1, node, link, .under habove hnode, within_succ.2 ⟨hone, hdepth⟩, hlink, rfl⟩

/-- The merge of a tree looks at the detailed ones among the subtrees that it gives. -/
theorem detail_mem_entries_iff_given {tree : Tree} {bound : Nat} {edge : Edge} {child : Tree} :
    .fact (.detail edge child) ∈ tree.entries (.ofBound bound) ↔
      (edge, child) ∈ tree.subtrees bound ∧ child.children.hasDetail = true := by
  induction tree using Tree.induction generalizing bound with
  | node direction id home children ih =>
      rw [detail_mem_entries_iff, mem_subtrees_iff]
      constructor
      · rintro ⟨link, hlink, ⟨hdetail, rfl, rfl⟩ | ⟨hone, hmem⟩⟩
        · exact ⟨⟨link, hlink, .inl rfl⟩, hdetail⟩
        · obtain ⟨hgiven, hdetail⟩ := (ih link hlink).1 hmem
          exact ⟨⟨link, hlink, .inr ⟨hone, hgiven⟩⟩, hdetail⟩
      · rintro ⟨⟨link, hlink, hgiven | ⟨hone, hgiven⟩⟩, hdetail⟩
        · obtain ⟨rfl, rfl⟩ := Prod.mk.inj hgiven
          exact ⟨link, hlink, .inl ⟨hdetail, rfl, rfl⟩⟩
        · exact ⟨link, hlink, .inr ⟨hone, (ih link hlink).2 ⟨hgiven, hdetail⟩⟩⟩

/-- The entries of a tree have no second subtree as a fault of their own. -/
theorem duplicateDetail_not_mem_entries {tree : Tree} {bound : Nat} {edge : Edge} :
    .fault (.duplicateDetail edge) ∉ tree.entries (.ofBound bound) := by
  induction tree using Tree.induction generalizing bound with
  | node direction id home children ih =>
      intro hfault
      obtain ⟨link, hlink, ⟨_, h⟩ | ⟨_, hbelow⟩⟩ := fault_mem_entries_iff.1 hfault
      · cases h
      · exact ih link hlink hbelow

end Tree

namespace Collection

variable {collection merged after : Collection} {supplied nested : Set (Edge × Tree)}

/-! ## The subtrees that build a collection -/

/-- The subtrees that a merge gives for edges; with another collection come those that built
it. -/
def Change.subtrees (nested : Set (Edge × Tree)) : Change → Set (Edge × Tree)
  | .home _ _ => ∅
  | .relation _ => ∅
  | .tree given bound => given.subtrees bound
  | .collection _ => nested

/-- The collections that successful merges lead to from nothing, with all subtrees that were
given for edges on the way, also on the way to a collection that was merged into another.  A
constructor of collections merges into nothing. -/
inductive Supplied : Set (Edge × Tree) → Collection → Prop
  | empty : Supplied ∅ empty
  | change {supplied nested : Set (Edge × Tree)} {collection merged : Collection}
      (change : Change) (hnested : ∀ other, change = .collection other → Supplied nested other) :
      Supplied supplied collection → collection.afterMerging change.perform = .ok merged →
        Supplied (supplied ∪ change.subtrees nested) merged

/-- The merge of a tree gives the subtrees of the tree. -/
theorem Supplied.merged_tree (hsupplied : Supplied supplied collection) {tree : Tree} {bound : Nat}
    (hmerged : collection.afterMerging (mergeTree tree bound) = .ok merged) :
    Supplied (supplied ∪ tree.subtrees bound) merged :=
  @Supplied.change supplied ∅ collection merged (.tree tree bound) (fun _ h => nomatch h)
    hsupplied hmerged

theorem Supplied.built (hsupplied : Supplied supplied collection) : Built collection := by
  induction hsupplied with
  | empty => exact .empty
  | change change _ _ hresult _ ih => exact ih.change change hresult

/-- A collection has registered the detailed ones among some subtrees. -/
def Registers (collection : Collection) (supplied : Set (Edge × Tree)) : Prop :=
  ∀ edge tree, .detail edge tree ∈ collection.facts ↔
    (edge, tree) ∈ supplied ∧ tree.children.hasDetail = true

/-- The subtrees that a merge tries to register are the detailed ones that it gives. -/
theorem Change.detail_mem_contents_listing {change : Change} {edge : Edge} {tree : Tree}
    (hnested : ∀ other, change = .collection other → Registers other nested) :
    .detail edge tree ∈ Fact.contents change.listing ↔
      (edge, tree) ∈ change.subtrees nested ∧ tree.children.hasDetail = true := by
  cases change with
  | home id home => simp [listing, subtrees, Fact.mem_contents_map, Fact.content]
  | relation relation => simp [listing, subtrees, Fact.contents, Fact.content]
  | tree given bound =>
      rw [subtrees, ← Tree.detail_mem_entries_iff_given, ← Entry.mem_facts]
      constructor
      · rintro ⟨fact, hfact, hsaid⟩
        rwa [Fact.detail_mem_content.1 hsaid] at hfact
      · intro hfact
        exact ⟨_, hfact, rfl⟩
  | collection other =>
      have hregisters := hnested other rfl edge tree
      rw [listing, Collection.detail_mem_listing, ← detail_mem_facts, hregisters, and_assoc,
        and_self]
      rfl

theorem Registers.perform (hregisters : Registers collection supplied) (hsound : Sound collection)
    {change : Change} (hnested : ∀ other, change = .collection other → Registers other nested)
    (hresult : change.perform collection = .ok () merged) :
    Registers merged (supplied ∪ change.subtrees nested) := by
  intro edge tree
  have hentered := hsound.enteredAll (hsound.perform_eq_ok_iff.1 hresult).2
  rw [hentered.facts_eq, Set.mem_union, hregisters edge tree,
    Change.detail_mem_contents_listing hnested, Set.mem_union, or_and_right]

/-- After successful merges the registered subtrees are the detailed ones among all that were
given. -/
theorem Supplied.registers (hsupplied : Supplied supplied collection) :
    Registers collection supplied := by
  induction hsupplied with
  | empty =>
      intro edge tree
      rw [facts_empty]
      simp
  | change change _ hbefore hresult hnested ih =>
      exact ih.perform hbefore.built.sound hnested (afterMerging_eq_ok.1 hresult)

/-! ## Two subtrees that clash -/

/-- A fact that is refused as a second subtree is a subtree, and another one is registered. -/
theorem Lockstep.clash_of_enter (hlockstep : Lockstep collection) {fact : Fact} {edge : Edge}
    (hresult : enter fact collection = .error (.duplicateDetail edge) after) :
    ∃ left right, left ≠ right ∧ .detail edge left ∈ collection.facts ∧
      fact = .detail edge right := by
  cases fact with
  | home id home =>
      rw [enter, mergeHome] at hresult
      split at hresult
      · split at hresult <;> cases hresult
      · cases hresult
  | known id => cases hresult
  | relation relation =>
      rcases hlockstep.left_of_mergeRelation_error hresult with ⟨hrefused, _⟩ | ⟨⟨_, _, _, h⟩, _⟩
      · cases hrefused
      · cases h
  | detail other right =>
      rw [enter, register] at hresult
      cases hrecorded : collection.details.get? other with
      | none =>
          simp only [hrecorded] at hresult
          cases hresult
      | some left =>
          simp only [hrecorded] at hresult
          split at hresult
          · cases hresult
          · next hdiffers =>
            cases hresult
            rw [Tree.same_iff] at hdiffers
            exact ⟨left, right, hdiffers, hrecorded, rfl⟩

/-- Entries that stop at a second subtree for an edge have this one, and another one comes
before it or is registered. -/
theorem Sound.clash_of_enterAllWith (hsound : Sound collection) {entries : List Entry}
    {edge : Edge} (hfaults : .fault (.duplicateDetail edge) ∉ entries)
    (hresult : Entry.enterAllWith .search entries collection =
      .error (.duplicateDetail edge) after) :
    ∃ left right, left ≠ right ∧
      (.detail edge left ∈ collection.facts ∨ .fact (.detail edge left) ∈ entries) ∧
        .fact (.detail edge right) ∈ entries := by
  induction entries generalizing collection with
  | nil => cases hresult
  | cons entry rest ih =>
      rw [List.mem_cons, not_or] at hfaults
      rw [Entry.enterAllWith_cons, Merging.bind_eq_error] at hresult
      cases entry with
      | fact stated =>
          rcases hresult with hfirst | ⟨middle, hfirst, hrest⟩
          · obtain ⟨left, right, hdiffer, hleft, rfl⟩ :=
              hsound.toLockstep.clash_of_enter hfirst
            exact ⟨left, right, hdiffer, .inl hleft, List.mem_cons_self⟩
          · have hentered := hsound.entered hfirst
            obtain ⟨left, right, hdiffer, hleft, hright⟩ := ih hentered.sound hfaults.2 hrest
            refine ⟨left, right, hdiffer, ?_, List.mem_cons_of_mem _ hright⟩
            -- What is registered after this fact was so before, or is the fact itself.
            rw [hentered.facts_eq, Set.mem_union, Fact.detail_mem_content, or_assoc] at hleft
            refine hleft.imp_right fun hgiven => ?_
            rw [List.mem_cons, Entry.fact.injEq]
            exact hgiven.imp_left Eq.symm
      | leaf direction id =>
          have hpass := LeafCheck.search_passes _ _ _ (hsound.ensureAcyclic direction id)
          rcases hresult with hfirst | ⟨middle, hfirst, hrest⟩
          · cases hpass.symm.trans hfirst
          · cases hpass.symm.trans hfirst
            obtain ⟨left, right, hdiffer, hleft, hright⟩ := ih hsound hfaults.2 hrest
            exact ⟨left, right, hdiffer, hleft.imp_right (List.mem_cons_of_mem _),
              List.mem_cons_of_mem _ hright⟩
      | fault error =>
          rcases hresult with hfirst | ⟨middle, hfirst, _⟩
          · cases hfirst
            exact absurd rfl hfaults.1
          · cases hfirst

/-- The merge of a tree is refused for two subtrees of an edge only if two that differ, both
with groups of children, were given for it, one of them by the tree itself.  If two such
subtrees were given for an edge, by the tree or before, the merge is refused. -/
theorem Supplied.mergeTree_clash (hsupplied : Supplied supplied collection) (tree : Tree)
    (bound : Nat) (edge : Edge) :
    (collection.afterMerging (mergeTree tree bound) = .error (.duplicateDetail edge) →
      ∃ left right, left ≠ right ∧
        left.children.hasDetail = true ∧ right.children.hasDetail = true ∧
          (edge, left) ∈ supplied ∪ tree.subtrees bound ∧
            (edge, right) ∈ tree.subtrees bound) ∧
      ((∃ left right, left ≠ right ∧
        left.children.hasDetail = true ∧ right.children.hasDetail = true ∧
          (edge, left) ∈ supplied ∪ tree.subtrees bound ∧
            (edge, right) ∈ supplied ∪ tree.subtrees bound) →
        ∃ error, collection.afterMerging (mergeTree tree bound) = .error error) := by
  have hsound := hsupplied.built.sound
  constructor
  · intro hrefused
    obtain ⟨after, hresult⟩ := afterMerging_eq_error.1 hrefused
    rw [mergeTree_eq, mergeTreeWith, Merging.bind_eq_error] at hresult
    rcases hresult with hlisting | ⟨_, hlisting, hentries⟩
    · have hcyclic := discard_eq_error.1 (Merging.check_eq_error_iff.1 hlisting).1
      obtain ⟨_, h⟩ := Tree.childDatasets_eq_error hcyclic
      cases h
    · obtain ⟨_, rfl⟩ := Merging.check_eq_ok_iff.1 hlisting
      obtain ⟨left, right, hdiffer, hleft, hright⟩ :=
        hsound.clash_of_enterAllWith Tree.duplicateDetail_not_mem_entries hentries
      rw [hsupplied.registers edge left, Tree.detail_mem_entries_iff_given, ← or_and_right] at hleft
      rw [Tree.detail_mem_entries_iff_given] at hright
      exact ⟨left, right, hdiffer, hleft.2, hright.2, hleft.1, hright.1⟩
  · rintro ⟨left, right, hdiffer, hleft, hright, hleftGiven, hrightGiven⟩
    cases hresult : collection.afterMerging (mergeTree tree bound) with
    | error error => exact ⟨error, rfl⟩
    | ok merged =>
        have hmerged := hsupplied.merged_tree hresult
        have hregisters := hmerged.registers edge
        have hsame := hmerged.built.sound.consistent.details edge left right
          ((hregisters left).2 ⟨hleftGiven, hleft⟩) ((hregisters right).2 ⟨hrightGiven, hright⟩)
        exact absurd hsame hdiffer

/-- A child is explored twice, to different ends. -/
theorem mergeTree_clash_of_other_grandchild :
    ∃ (collection : Collection) (supplied : Set (Edge × Tree)) (left right : Tree),
      Supplied supplied collection ∧
      collection.relations =
        [⟨"x", .numbered 1, .numbered 2⟩, ⟨"y", .numbered 2, .numbered 3⟩] ∧
      collection.afterMerging (mergeTree (.node .derived (.numbered 1) none (.populated
        [("x", [.node .derived (.numbered 2) none (.populated
          [("y", [.leaf (.numbered 4) .derived])])])])) 0) =
        .error (.duplicateDetail ⟨.numbered 1, .numbered 2⟩) ∧
      left ≠ right ∧ left.children.hasDetail = true ∧ right.children.hasDetail = true := by
  let parent (grandchild : Nat) : Tree := .node .derived (.numbered 1) none (.populated
    [("x", [.node .derived (.numbered 2) none (.populated
      [("y", [.leaf (.numbered grandchild) .derived])])])])
  let collection := leaves (mergeTree (parent 3) 0) empty
  have hmerged : empty.afterMerging (mergeTree (parent 3) 0) = .ok collection :=
    afterMerging_eq_ok.2 (eq_ok_of_run' (by decide +kernel))
  have hsupplied := Supplied.empty.merged_tree hmerged
  have hrefused : discard (collection.afterMerging (mergeTree (parent 4) 0)) =
      .error (.duplicateDetail ⟨.numbered 1, .numbered 2⟩) := by decide +kernel
  have herror := discard_eq_error.1 hrefused
  obtain ⟨left, right, hdiffer, hleft, hright, _⟩ :=
    (hsupplied.mergeTree_clash (parent 4) 0 ⟨.numbered 1, .numbered 2⟩).1 herror
  exact ⟨collection, _, left, right, hsupplied, by decide +kernel, herror, hdiffer, hleft, hright⟩

/-- A group without a child is detail as well: a tree is refused for two subtrees of an edge,
though nothing is below one of the two. -/
theorem mergeTree_clash_of_empty_group :
    ∃ childless explored tree : Tree,
      childless = .node .derived (.numbered 2) none (.populated [("ard", [])]) ∧
      explored = .node .derived (.numbered 2) none (.populated
        [("y", [.placeholder (.numbered 3) .derived])]) ∧
      tree = .node .derived (.numbered 1) none (.populated [("x", [childless, explored])]) ∧
      Supplied ∅ empty ∧
      empty.afterMerging (mergeTree tree 0) =
        .error (.duplicateDetail ⟨.numbered 1, .numbered 2⟩) ∧
      ¬ ∃ left right, left ≠ right ∧ left.children.links ≠ [] ∧ right.children.links ≠ [] ∧
        (⟨.numbered 1, .numbered 2⟩, left) ∈ ∅ ∪ tree.subtrees 0 ∧
          (⟨.numbered 1, .numbered 2⟩, right) ∈ tree.subtrees 0 := by
  refine ⟨_, _, _, rfl, rfl, rfl, .empty, discard_eq_error.1 (by decide +kernel), ?_⟩
  let childless : Tree := .node .derived (.numbered 2) none (.populated [("ard", [])])
  let explored : Tree := .node .derived (.numbered 2) none (.populated
    [("y", [.placeholder (.numbered 3) .derived])])
  let tree : Tree :=
    .node .derived (.numbered 1) none (.populated [("x", [childless, explored])])
  have hgiven : ∀ child, (⟨.numbered 1, .numbered 2⟩, child) ∈ tree.subtrees 0 →
      child.children.links ≠ [] → child = explored := by
    intro child hchild hlinks
    obtain ⟨link, hlink, hchild⟩ := Tree.mem_subtrees_iff.1 hchild
    have hlink : link ∈ [("x", childless), ("x", explored)] := hlink
    rw [List.mem_pair] at hlink
    rcases hlink with rfl | rfl <;> rcases hchild with hchild | ⟨_, hbelow⟩
    · exact absurd (congrArg (fun tree => tree.children.links) (Prod.mk.inj hchild).2) hlinks
    · obtain ⟨_, hnone, _⟩ := Tree.mem_subtrees_iff.1 hbelow
      cases hnone
    · exact (Prod.mk.inj hchild).2
    · obtain ⟨link, hlink, hlast | ⟨_, hbelow⟩⟩ := Tree.mem_subtrees_iff.1 hbelow
      · rw [List.mem_singleton.1 hlink] at hlast
        exact absurd (Prod.mk.inj hlast).1 (by decide)
      · rw [List.mem_singleton.1 hlink] at hbelow
        obtain ⟨_, hnone, _⟩ := Tree.mem_subtrees_iff.1 hbelow
        cases hnone
  rintro ⟨left, right, hdiffer, hleft, hright, hleftGiven, hrightGiven⟩
  rw [Set.empty_union] at hleftGiven
  exact hdiffer ((hgiven left hleftGiven hleft).trans (hgiven right hrightGiven hright).symm)

end Collection

end DatasetLineage
