import DatasetLineage.Document.Record
import DatasetLineage.Proofs.Collection.Acceptance
import DatasetLineage.Proofs.Document.TreeDocument

/-!
# Reading a document again

The nodes of a tree that was read stand for the nodes of its document, one by one.  So they
show what becomes of a document that is read, written and read again.  A node with null under
the key of a direction takes that direction and is unexplored.  Nothing of this is written, so
the second reading gives it the direction of its parent, and a merge that refuses the first
tree may accept the second one.  All other documents give the same tree again.
-/

namespace DatasetLineage

/-! ## Nodes of a document -/

namespace Json

/-- A value that is listed somewhere below, with the direction of the key that it stands
under. -/
inductive NodeBelow : Json → Direction → Json → Prop
  | child {value node : Json} {direction : Direction} :
      ChildNode value direction node → NodeBelow value direction node
  | under {value child node : Json} {parent direction : Direction} :
      ChildNode value parent child → NodeBelow child direction node →
        NodeBelow value direction node

end Json

namespace Tree

variable {parent direction : Direction} {id : DatasetId} {value : Json} {tree : Tree}

/-- A single child under one classifier. -/
theorem childrenOf_singleton {fields : List (String × Json)} {classifier : String}
    (hkey : fields.lookup direction.name = some (.object [(classifier, .array [value])]))
    (hchild : ofNode direction value = .ok tree) :
    childrenOf id direction fields = .ok (.populated [(classifier, [tree])]) := by
  rw [childrenOf_eq, hkey]
  simp only [childrenIn, groupsOf, nodesOf, hchild]
  rfl

/-! ## The nodes of a tree that was read -/

theorem ofGroups_ne_populated_nil (groups : List (String × List Tree)) :
    Children.ofGroups groups ≠ .populated [] := by
  cases groups with
  | nil => exact nofun
  | cons group rest =>
      intro heq
      cases Children.populated.inj heq

/-- An unexplored node has another direction than its parent exactly if null stands under the
key of that direction. -/
theorem turned_iff (hread : ofNode parent value = .ok tree) :
    tree.children = .unknown ∧ tree.direction ≠ parent ↔
      value.field? parent.opposite.name = some .null := by
  obtain ⟨fields, rfl, _, _, hdirection, hchildren⟩ := ofNode_eq_ok_iff.1 hread
  rw [childrenOf_eq_ok_iff] at hchildren
  rw [readDirection_eq_ok_iff] at hdirection
  rw [Json.field?]
  constructor
  · rintro ⟨hunknown, hturned⟩
    rw [← Direction.eq_opposite_of_ne hturned]
    obtain ⟨hnone | hnull, _⟩ | ⟨groups, trees, _, _, hfound⟩ := hchildren
    · exact absurd (hdirection.2 hnone) hturned
    · exact hnull
    · rw [hunknown] at hfound
      cases trees <;> cases hfound
  · intro hnull
    have hturned : tree.direction ≠ parent := by
      intro heq
      rw [heq, hnull] at hdirection
      cases hdirection.1
    refine ⟨?_, hturned⟩
    rw [← Direction.eq_opposite_of_ne hturned] at hnull
    obtain ⟨_, hunknown⟩ | ⟨groups, trees, hkey, _, _⟩ := hchildren
    · exact hunknown
    · cases hnull.symm.trans hkey

/-- The document of a tree that was read says everything about it exactly if no node below the
root of the first document has null under the key of the other direction. -/
theorem expressible_iff_of_read (hread : ofNode parent value = .ok tree) :
    tree.Expressible ↔ ∀ direction node, value.NodeBelow direction node →
      node.field? direction.opposite.name ≠ some .null := by
  -- The document below a node is followed along its tree, whose links are its child values.
  induction tree using Tree.induction generalizing parent value with
  | node heading id home children ih =>
      have hpopulated : (node heading id home children).children ≠ .populated [] := by
        obtain ⟨fields, rfl, _, _, _, hchildren⟩ := ofNode_eq_ok_iff.1 hread
        obtain ⟨_, hunknown⟩ | ⟨groups, trees, _, _, hfound⟩ :=
          childrenOf_eq_ok_iff.1 hchildren
        · rw [hunknown]
          exact nofun
        · rw [hfound]
          exact ofGroups_ne_populated_nil trees
      rw [expressible_iff]
      constructor
      · intro ⟨_, hlinks⟩ direction below hbelow
        cases hbelow with
        | child hchild =>
            obtain ⟨rfl, link, hlink, hchild⟩ := exists_link_of_childNode hread hchild
            rw [Ne, ← turned_iff hchild]
            exact fun hturned => hturned.2 ((hlinks link hlink).1 hturned.1)
        | under hchild hbelow =>
            obtain ⟨rfl, link, hlink, hchild⟩ := exists_link_of_childNode hread hchild
            exact (ih link hlink hchild).1 (hlinks link hlink).2 direction below hbelow
      · intro hbelow
        refine ⟨hpopulated, fun link hlink => ?_⟩
        obtain ⟨child, hchild, hread⟩ := exists_childNode_of_link hread hlink
        have hkept := hbelow _ child (.child hchild)
        rw [Ne, ← turned_iff hread] at hkept
        constructor
        · intro hunknown
          exact not_not.1 fun hturned => hkept ⟨hunknown, hturned⟩
        · refine (ih link hlink hread).2 fun direction below hbelow' => ?_
          exact hbelow direction below (.under hchild hbelow')

/-- A node with null under the key of the other direction makes the tree mix directions. -/
theorem not_oneDirection_of_nodeBelow {node : Json} (hbelow : value.NodeBelow direction node)
    (hnull : node.field? direction.opposite.name = some .null)
    (hread : ofNode parent value = .ok tree) : ¬ tree.OneDirection 0 := by
  induction hbelow generalizing parent tree with
  | child hchild =>
      intro hdirection
      obtain ⟨rfl, link, hlink, hchild⟩ := exists_link_of_childNode hread hchild
      exact ((turned_iff hchild).2 hnull).2 (oneDirection_iff.1 hdirection link hlink).1
  | under hchild _ ih =>
      intro hdirection
      obtain ⟨rfl, link, hlink, hchild⟩ := exists_link_of_childNode hread hchild
      exact ih hnull hchild ((oneDirection_iff.1 hdirection link hlink).2 Nat.zero_ne_one)

theorem ofDocument_of_undeclared (hundeclared : value.field? "direction" = none)
    (hread : ofNode direction value = .ok tree) : ofDocument value direction = .ok tree := by
  rw [ofDocument_eq_ok_iff, hundeclared]
  exact ⟨none, rfl, hread, nofun⟩

/-! ## What a second reading changes -/

/-- The document of a tree that was read is always read again.  It gives the same tree, whatever
direction is asked for, exactly if no node below the root of the first document has null under
the key of the direction that its parent does not have.  A tree that is not given again was not
fit for a merge of all its levels, whereas the tree that replaces it may be. -/
theorem ofDocument_again {default : Direction} (hread : ofDocument value default = .ok tree)
    (other : Direction) :
    ofDocument tree.toDocument other = .ok (tree.readBack tree.direction) ∧
      (ofDocument tree.toDocument other = .ok tree ↔
        ¬ ∃ direction node, value.NodeBelow direction node ∧
          node.field? direction.opposite.name = some .null) ∧
      (ofDocument tree.toDocument other ≠ .ok tree →
        ∀ collection, Collection.Built collection →
          ¬ ∃ merged, collection.afterMerging (Collection.mergeTree tree 0) = .ok merged) := by
  obtain ⟨parent, hnode⟩ := ofNode_of_ofDocument hread
  have hagain : ofDocument tree.toDocument other = .ok tree ↔
      ¬ ∃ direction node, value.NodeBelow direction node ∧
        node.field? direction.opposite.name = some .null := by
    rw [ofDocument_toDocument, Except.ok.injEq, readBack_eq_iff, expressible_iff_of_read hnode]
    simp
  refine ⟨ofDocument_toDocument tree other, hagain, ?_⟩
  rw [Ne, hagain, not_not]
  rintro ⟨direction, node, hbelow, hnull⟩ collection hbuilt ⟨merged, hmerged⟩
  rw [Collection.afterMerging_eq_ok, Collection.mergeTree_eq] at hmerged
  have haccepted := (hbuilt.sound.mergeTreeWith_succeeds_iff LeafCheck.search_passes).1
    ⟨merged, hmerged⟩
  exact not_oneDirection_of_nodeBelow hbelow hnull hnode haccepted.2.1

/-- A grandchild that is unexplored in the other direction. -/
theorem ofDocument_again_of_grandchild :
    let node : Json := .object [("dataset_id", .ofId (.numbered 3)), ("sources", .null)]
    let child : Json := .object
      [("dataset_id", .ofId (.numbered 2)), ("derived", .object [("level1", .array [node])])]
    let value : Json := .object
      [("dataset_id", .ofId (.numbered 1)), ("derived", .object [("ard", .array [child])])]
    let tree : Tree := .node .derived (.numbered 1) none (.populated
      [("ard", [.node .derived (.numbered 2) none (.populated
        [("level1", [.placeholder (.numbered 3) .sources])])])])
    ofDocument value .sources = .ok tree ∧ ofDocument tree.toDocument .sources ≠ .ok tree ∧
      ∀ collection, Collection.Built collection →
        ¬ ∃ merged, collection.afterMerging (Collection.mergeTree tree 0) = .ok merged := by
  intro node child value tree
  have hnode : ofNode .derived node = .ok (.placeholder (.numbered 3) .sources) :=
    ofNode_eq_ok_iff.2 ⟨_, rfl, readId_toString _, rfl, rfl, rfl⟩
  have hchild : ofNode .derived child = .ok (.node .derived (.numbered 2) none (.populated
      [("level1", [.placeholder (.numbered 3) .sources])])) := by
    refine ofNode_eq_ok_iff.2 ⟨_, rfl, readId_toString _, rfl, rfl, ?_⟩
    exact childrenOf_singleton rfl hnode
  have hread : ofDocument value .sources = .ok tree := by
    refine ofDocument_of_undeclared rfl (ofNode_eq_ok_iff.2 ⟨_, rfl, ?_⟩)
    exact ⟨readId_toString _, rfl, rfl, childrenOf_singleton rfl hchild⟩
  have hfirst : value.ChildNode .derived child :=
    ⟨_, _, _, rfl, List.mem_cons_self, List.mem_cons_self⟩
  have hsecond : child.ChildNode .derived node :=
    ⟨_, _, _, rfl, List.mem_cons_self, List.mem_cons_self⟩
  have hbelow : ∃ direction node, value.NodeBelow direction node ∧
      node.field? direction.opposite.name = some .null :=
    ⟨.derived, node, .under hfirst (.child hsecond), rfl⟩
  obtain ⟨_, hagain, hrefused⟩ := ofDocument_again hread .sources
  have hchanged : ofDocument tree.toDocument .sources ≠ .ok tree :=
    fun hsame => hagain.1 hsame hbelow
  exact ⟨hread, hchanged, hrefused hchanged⟩

/-- A child that is unexplored in the other direction is read again in the direction of its
parent, and a merge that refuses the first tree accepts the second one. -/
theorem ofDocument_again_fails_of_null :
    let value : Json := .object [("dataset_id", .ofId (.numbered 1)), ("sources", .object
      [("ard", .array [.object [("dataset_id", .ofId (.numbered 2)), ("derived", .null)]])])]
    let tree : Tree := .node .sources (.numbered 1) none
      (.populated [("ard", [.placeholder (.numbered 2) .derived])])
    let again : Tree := .node .sources (.numbered 1) none
      (.populated [("ard", [.placeholder (.numbered 2) .sources])])
    ofDocument value .sources = .ok tree ∧ ofDocument tree.toDocument .sources = .ok again ∧
      again ≠ tree ∧
      Collection.ofTree tree 0 = .error (.mixedDirection (.numbered 2) .sources .derived) ∧
      ∃ collection, Collection.ofTree again 0 = .ok collection := by
  intro value tree again
  have haccepted : (Collection.ofTree again 0).isOk = true := by decide +kernel
  refine ⟨?_, ofDocument_toDocument tree .sources, ?_, rfl, ?_⟩
  · refine ofDocument_of_undeclared rfl (ofNode_eq_ok_iff.2 ⟨_, rfl, ?_⟩)
    refine ⟨readId_toString _, rfl, rfl, childrenOf_singleton rfl ?_⟩
    exact ofNode_eq_ok_iff.2 ⟨_, rfl, readId_toString _, rfl, rfl, rfl⟩
  · simp [again, tree, placeholder]
  · cases hresult : Collection.ofTree again 0 with
    | ok collection => exact ⟨collection, rfl⟩
    | error error =>
        rw [hresult] at haccepted
        cases haccepted

end Tree

end DatasetLineage
