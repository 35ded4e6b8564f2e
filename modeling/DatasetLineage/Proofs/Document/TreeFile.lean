import DatasetLineage.Proofs.Collection.Built
import DatasetLineage.Proofs.Document.File
import DatasetLineage.Proofs.Document.TreeDocument

/-!
# Trees in files

The document of a tree consists of texts, arrays and objects with ascending fields.  Every level
of the tree takes three containers, so the document has as many of them inside each other as can
be read exactly if all nodes 42 levels below the root are unexplored.  Deeper trees are written,
but not read again.
-/

namespace DatasetLineage

namespace Tree

variable {extra : List (String × Json)} {tree : Tree}

theorem nodeValues_eq (nodes : List Tree) :
    nodeValues nodes = nodes.map fun node => .object (nodeFields [] node) := by
  induction nodes with
  | nil => rfl
  | cons node rest ih => rw [nodeValues, ih, List.map_cons]

theorem groupFields_eq (groups : List (String × List Tree)) :
    groupFields groups = groups.map fun group => (group.1, .array (nodeValues group.2)) := by
  induction groups with
  | nil => rfl
  | cons group rest ih => rw [groupFields, ih, List.map_cons]

/-- The fields of a node, up to their order. -/
theorem mem_nodeFields {field : String × Json} :
    field ∈ nodeFields extra tree ↔
      field = ("dataset_id", .text (toString tree.id)) ∨ field ∈ extra ∨
        (∃ home ∈ tree.home, field = ("home", .text home)) ∨
        ∃ value ∈ childValue? tree.children, field = (tree.direction.name, value) := by
  obtain ⟨direction, id, home, children⟩ := tree
  cases direction with
  | sources =>
      simp [nodeFields, childrenFields_eq, Tree.id, Tree.home, Tree.children, Tree.direction,
        eq_comm]
  | derived =>
      refine Iff.trans ?_ (or_congr Iff.rfl or_rotate)
      simp [nodeFields, childrenFields_eq, Tree.id, Tree.home, Tree.children, Tree.direction,
        eq_comm]

/-- The names of the fields of a node are among a few names in ascending order. -/
theorem pairwise_nodeFields (hextra : (extra.map Prod.fst).Sublist ["direction"]) :
    (nodeFields extra tree).Pairwise fun left right => left.1 < right.1 := by
  obtain ⟨direction, id, home, children⟩ := tree
  have hoptional : ∀ {α : Type} (name : String) (write : α → Json) (content : Option α),
      (((content.map fun value => (name, write value)).toList).map Prod.fst).Sublist [name] := by
    intro α name write content
    cases content <;> simp
  rw [← List.pairwise_map (f := Prod.fst) (R := (· < ·))]
  cases direction with
  | sources =>
      have hnames : ((nodeFields extra (.node .sources id home children)).map Prod.fst).Sublist
          ["dataset_id", "direction", "home", "sources"] := by
        simp only [nodeFields, childrenFields_eq, List.map_cons, List.map_append]
        exact ((hextra.append (hoptional _ _ _)).append (hoptional _ _ _)).cons_cons _
      exact List.Pairwise.sublist hnames (by decide)
  | derived =>
      have hnames : ((nodeFields extra (.node .derived id home children)).map Prod.fst).Sublist
          ["dataset_id", "derived", "direction", "home"] := by
        simp only [nodeFields, childrenFields_eq, List.map_cons, List.map_append]
        exact (((hoptional _ _ _).append hextra).append (hoptional _ _ _)).cons_cons _
      exact List.Pairwise.sublist hnames (by decide)

/-- The object of a node is canonical, if the groups of its children ascend. -/
theorem canonical_node (hnames : (extra.map Prod.fst).Sublist ["direction"])
    (hextra : ∀ field ∈ extra, field.2.Canonical) (hascending : tree.Ascending) :
    (Json.object (nodeFields extra tree)).Canonical := by
  -- Only the root has an extra field, so the claim for its children is the one without any.
  induction tree using Tree.induction generalizing extra with
  | node direction id home children ih =>
      obtain ⟨hgroups, hlinks⟩ := ascending_iff.1 hascending
      have hchildren : ∀ value ∈ childValue? children, value.Canonical := by
        intro value hvalue
        cases children with
        | unknown => cases hvalue
        | empty =>
            cases hvalue
            exact .object .nil (by simp)
        | populated groups =>
            cases hvalue
            have hnodes := (@forall_links_populated groups fun node =>
              (Json.object (nodeFields [] node)).Canonical).1 fun link hlink =>
                ih link hlink (List.nil_sublist _) (List.forall_mem_nil _) (hlinks link hlink)
            rw [groupFields_eq]
            refine .object (List.pairwise_map.2 hgroups) (List.forall_mem_map.2 ?_)
            intro group hgroup
            rw [nodeValues_eq]
            exact .array (List.forall_mem_map.2 (hnodes group hgroup))
      refine .object (pairwise_nodeFields hnames) fun field hfield => ?_
      obtain rfl | hfield | ⟨home, _, rfl⟩ | ⟨value, hvalue, rfl⟩ := mem_nodeFields.1 hfield
      · exact .text _
      · exact hextra field hfield
      · exact .text home
      · exact hchildren value hvalue

theorem canonical_toDocument (hascending : tree.Ascending) : tree.toDocument.Canonical := by
  apply canonical_node _ _ hascending
  · simp
  · simpa using Json.Canonical.text _

/-! ## Nesting -/

theorem nesting_node_le_iff (hextra : ∀ field ∈ extra, field.2.nesting = 0) {bound : Nat} :
    (Json.object (nodeFields extra tree)).nesting ≤ bound + 1 ↔
      ∀ value ∈ childValue? tree.children, value.nesting ≤ bound := by
  rw [Json.nesting, Nat.add_le_add_iff_right, Json.fieldsNesting_le_iff]
  constructor
  · intro hfields value hvalue
    exact hfields _ (mem_nodeFields.2 (.inr (.inr (.inr ⟨value, hvalue, rfl⟩))))
  · intro hchildren field hfield
    obtain rfl | hfield | ⟨home, _, rfl⟩ | ⟨value, hvalue, rfl⟩ := mem_nodeFields.1 hfield
    · exact Nat.zero_le bound
    · rw [hextra field hfield]
      exact Nat.zero_le bound
    · exact Nat.zero_le bound
    · exact hchildren value hvalue

/-- A level of a tree takes three containers: the object of a node, the object of its groups and
the array of one of them. -/
theorem nesting_node_le_succ_iff (hextra : ∀ field ∈ extra, field.2.nesting = 0) {bound : Nat} :
    (Json.object (nodeFields extra tree)).nesting ≤ bound + 3 ↔
      ∀ link ∈ tree.children.links, (Json.object (nodeFields [] link.2)).nesting ≤ bound := by
  rw [nesting_node_le_iff hextra]
  cases tree.children with
  | unknown => simp [childValue?, Children.links, Children.groups]
  | empty => simp [childValue?, Children.links, Children.groups, Json.nesting, Json.fieldsNesting]
  | populated groups =>
      rw [@forall_links_populated groups fun node =>
        (Json.object (nodeFields [] node)).nesting ≤ bound]
      simp only [childValue?, Option.mem_some_iff, forall_eq', Json.nesting, groupFields_eq,
        nodeValues_eq, Nat.add_le_add_iff_right, Json.fieldsNesting_le_iff, List.forall_mem_map,
        Json.itemsNesting_le_iff]

/-- The containers of a tree reach to the nodes at some depth exactly if these are unexplored. -/
theorem nesting_node_le_iff_unknown (hextra : ∀ field ∈ extra, field.2.nesting = 0)
    (depth : Nat) :
    (Json.object (nodeFields extra tree)).nesting ≤ 3 * depth + 1 ↔
      ∀ node, tree.NodeAt depth node → node.children = .unknown := by
  induction depth generalizing tree extra with
  | zero =>
      rw [nesting_node_le_iff hextra]
      cases hchildren : tree.children <;>
        simp [nodeAt_zero, hchildren, childValue?, Json.nesting]
  | succ depth ih =>
      rw [show 3 * (depth + 1) + 1 = (3 * depth + 1) + 3 by omega,
        nesting_node_le_succ_iff hextra]
      simp only [ih (List.forall_mem_nil _), nodeAt_succ, forall_exists_index, and_imp]
      constructor
      · intro hlinks node link hlink hnode
        exact hlinks link hlink node hnode
      · intro hnodes link hlink node hnode
        exact hnodes node link hlink hnode

theorem nesting_toDocument_le_iff :
    tree.toDocument.nesting ≤ Json.documentNesting ↔
      ∀ node, tree.NodeAt 42 node → node.children = .unknown :=
  nesting_node_le_iff_unknown (by simp [Json.nesting]) 42

end Tree

/-! ## Writing a tree and loading it -/

namespace Workspace

variable {workspace : Workspace} {path : String} {location : Location} {tree : Tree}

/-- A written tree is loaded as its document tells it, unless it is too deep. -/
theorem LeadsToFile.loadTree_of_writeTree (hpath : workspace.LeadsToFile path location)
    (hformat : Format.ofPath path = .json) (hascending : tree.Ascending) (default : Direction)
    (yaml : YamlReader) :
    ∃ written, workspace.writeTree path tree = .ok written ∧
      written.loadTree path default yaml =
        if tree.toDocument.nesting ≤ Json.documentNesting then
          .ok (tree.readBack tree.direction)
        else .error (.during (.parsingJson path) (.unreadable .json)) := by
  have hcanonical := Tree.canonical_toDocument hascending
  obtain ⟨written, hwritten, hread⟩ :=
    hpath.readValue_of_writeDocument hformat hcanonical.textual yaml
  refine ⟨written, hwritten, ?_⟩
  rw [loadTree, hread, hcanonical.arranged_eq]
  by_cases hnesting : tree.toDocument.nesting ≤ Json.documentNesting
  · rw [if_pos hnesting, if_pos hnesting]
    change Except.mapError _ (if Tree.isIngest tree.toDocument = true then _ else _) = _
    rw [Tree.isIngest_toDocument, if_neg Bool.false_ne_true, Tree.ofDocument_toDocument]
    rfl
  · rw [if_neg hnesting, if_neg hnesting]
    rfl

/-- A tree of one direction that is written to a JSON file is loaded again, whatever direction is
asked for, exactly if all nodes 42 levels below its root are unexplored.  Else the file is not
read, as it has more containers inside each other than the reader of documents permits. -/
theorem loadTree_writeTree (hpath : workspace.LeadsToFile path location)
    (hformat : Format.ofPath path = .json) (hascending : tree.Ascending)
    (hdirection : ∀ depth node, tree.NodeAt depth node → node.direction = tree.direction)
    (hpopulated : ∀ depth node, tree.NodeAt depth node → node.children ≠ .populated [])
    (default : Direction) (yaml : YamlReader) :
    ∃ written, workspace.writeTree path tree = .ok written ∧
      ((∀ node, tree.NodeAt 42 node → node.children = .unknown) →
        written.loadTree path default yaml = .ok tree) ∧
      ((¬ ∀ node, tree.NodeAt 42 node → node.children = .unknown) →
        written.loadTree path default yaml =
          .error (.during (.parsingJson path) (.unreadable .json))) := by
  have hexpressible : tree.Expressible := by
    refine ⟨hpopulated, fun depth node hnode link hlink _ => ?_⟩
    rw [hdirection _ _ hnode, hdirection _ _ (hnode.child hlink)]
  have hback : tree.readBack tree.direction = tree :=
    Tree.readBack_eq_iff.2 ⟨fun _ => rfl, hexpressible⟩
  obtain ⟨written, hwritten, hloaded⟩ :=
    hpath.loadTree_of_writeTree hformat hascending default yaml
  rw [hback] at hloaded
  refine ⟨written, hwritten, ?_, ?_⟩
  · intro hunknown
    rw [hloaded, if_pos (Tree.nesting_toDocument_le_iff.2 hunknown)]
  · intro hexplored
    rw [hloaded, if_neg (mt Tree.nesting_toDocument_le_iff.1 hexplored)]

end Workspace

/-! ## The deepest trees -/

namespace Tree

/-- A chain of some levels below its root, which ends in a dataset without sources. -/
def chain : Nat → Tree
  | 0 => .leaf (.numbered 0) .sources
  | levels + 1 =>
      .node .sources (.numbered (levels + 1)) none (.populated [("ard", [chain levels])])

theorem links_chain (levels : Nat) :
    (chain (levels + 1)).children.links = [("ard", chain levels)] := rfl

theorem nodeAt_chain_iff {levels depth : Nat} {node : Tree} :
    (chain levels).NodeAt depth node ↔ ∃ below, below + depth = levels ∧ node = chain below := by
  induction depth generalizing levels with
  | zero => simp [nodeAt_zero]
  | succ depth ih =>
      rw [nodeAt_succ]
      cases levels with
      | zero => simp [chain, leaf, children, Children.links, Children.groups]
      | succ levels => simp [links_chain, ih, ← Nat.add_assoc]

theorem ascending_chain (levels : Nat) : (chain levels).Ascending := by
  intro depth node hnode
  obtain ⟨below, _, rfl⟩ := nodeAt_chain_iff.1 hnode
  cases below <;> simp [chain, leaf, children, Children.groups]

theorem direction_of_nodeAt_chain {levels depth : Nat} {node : Tree}
    (hnode : (chain levels).NodeAt depth node) : node.direction = .sources := by
  obtain ⟨below, _, rfl⟩ := nodeAt_chain_iff.1 hnode
  cases below <;> rfl

theorem populated_of_nodeAt_chain {levels depth : Nat} {node : Tree}
    (hnode : (chain levels).NodeAt depth node) : node.children ≠ .populated [] := by
  obtain ⟨below, _, rfl⟩ := nodeAt_chain_iff.1 hnode
  cases below <;> simp [chain, leaf, children]

end Tree

namespace Workspace

theorem splitOn_of_example {name separator : String} (hname : name = "tree" ∨ name = "store")
    (hseparator : separator = "/" ∨ separator = ".") : name.splitOn separator = [name] := by
  obtain rfl | rfl := hname <;> obtain rfl | rfl := hseparator <;>
  · rw [String.splitOn, if_neg (by decide)]
    repeat rw [String.splitOnAux, if_neg (by decide), if_neg (by decide)]
    rw [String.splitOnAux, if_pos (by decide)]
    decide +kernel

theorem plain_of_example {name : String} (hname : name = "tree" ∨ name = "store") : Plain name where
  isPath := by
    rw [isPath, splitOn_of_example hname (.inl rfl)]
    obtain rfl | rfl := hname <;> decide +kernel
  isRelative := by
    obtain rfl | rfl := hname <;> decide +kernel
  isName := by
    obtain rfl | rfl := hname <;> decide
  isWhole := fun _ => splitOn_of_example hname

theorem ofPath_tree : Format.ofPath "tree" = .json :=
  (plain_of_example (.inl rfl)).ofPath

theorem leadsToFile_tree : LeadsToFile {} "tree" ["tree"] :=
  (plain_of_example (.inl rfl)).leadsToFile rfl

/-- A chain of 41 levels is loaded again. -/
theorem loadTree_writeTree_of_chain :
    ∃ written, writeTree {} "tree" (.chain 41) = .ok written ∧
      written.loadTree "tree" .derived = .ok (.chain 41) := by
  obtain ⟨written, hwritten, hloaded, _⟩ := loadTree_writeTree leadsToFile_tree ofPath_tree
    (Tree.ascending_chain 41) (fun _ _ hnode => Tree.direction_of_nodeAt_chain hnode)
    (fun _ _ hnode => Tree.populated_of_nodeAt_chain hnode) .derived .untagged
  refine ⟨written, hwritten, hloaded fun node hnode => ?_⟩
  obtain ⟨below, hbelow, _⟩ := Tree.nodeAt_chain_iff.1 hnode
  omega

/-- A chain of 42 levels, which has one direction and no node that is populated by nothing, is
written but not loaded again. -/
theorem loadTree_writeTree_fails_of_chain :
    (Tree.chain 42).Ascending ∧
    (∀ depth node, (Tree.chain 42).NodeAt depth node →
      node.direction = .sources ∧ node.children ≠ .populated []) ∧
    ∃ written, writeTree {} "tree" (.chain 42) = .ok written ∧
      written.loadTree "tree" .sources =
        .error (.during (.parsingJson "tree") (.unreadable .json)) := by
  have hascending := Tree.ascending_chain 42
  refine ⟨hascending, fun depth node hnode => ?_, ?_⟩
  · exact ⟨Tree.direction_of_nodeAt_chain hnode, Tree.populated_of_nodeAt_chain hnode⟩
  · obtain ⟨written, hwritten, hloaded⟩ :=
      leadsToFile_tree.loadTree_of_writeTree ofPath_tree hascending .sources .untagged
    refine ⟨written, hwritten, ?_⟩
    rw [hloaded, if_neg]
    intro hnesting
    have hleaf : (Tree.chain 42).NodeAt 42 (Tree.chain 0) := Tree.nodeAt_chain_iff.2 ⟨0, rfl, rfl⟩
    cases Tree.nesting_toDocument_le_iff.1 hnesting _ hleaf

end Workspace

end DatasetLineage
