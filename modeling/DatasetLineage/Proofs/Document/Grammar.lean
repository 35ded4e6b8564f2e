import DatasetLineage.Proofs.Document.Reading
import DatasetLineage.Proofs.Tree.Nodes

/-!
# The grammar of tree documents

A grammar says which values describe a node of a tree, the children of a node, or a list of
nodes.  A document is read exactly if it is a node by the grammar and its root does not name a
direction other than that of its children, and everything else is refused as malformed.  The
tree that is read has a node for every node of the document, at the same place, whose direction
is that of the key of its children, or else that of its parent.
-/

namespace DatasetLineage

namespace Json

mutual

/-- A node of a tree: an object with the text of an id, perhaps with a home, and with children
under at most one of the keys of the two directions. -/
inductive IsNode : Json → Prop
  | object {fields : List (String × Json)}
      (id : ∃ written id, fields.lookup "dataset_id" = some (.text written) ∧
        DatasetId.ofText? written = some id)
      (home : LeftOut (fields.lookup "home") ∨ ∃ home, fields.lookup "home" = some (.text home))
      (oneKey : fields.lookup Direction.sources.name = none ∨
        fields.lookup Direction.derived.name = none)
      (children : ∀ (key : Direction) value, fields.lookup key.name = some value →
        IsChildren value) :
      IsNode (.object fields)

/-- The children of a node: null, or an object of lists of nodes. -/
inductive IsChildren : Json → Prop
  | null : IsChildren .null
  | object {groups : List (String × Json)} (lists : ∀ group ∈ groups, IsNodeList group.2) :
      IsChildren (.object groups)

/-- A list of nodes. -/
inductive IsNodeList : Json → Prop
  | array {items : List Json} (nodes : ∀ node ∈ items, IsNode node) : IsNodeList (.array items)

end

/-- A root names no direction, or one that does not contradict the key of its children. -/
def DirectionAgrees (value : Json) : Prop :=
  LeftOut (value.field? "direction") ∨
    ∃ direction, value.NamesDirection direction ∧
      ∀ key : Direction, value.field? key.name ≠ none → key = direction

/-! ## Places -/

def keyDirection? (value : Json) : Option Direction :=
  [Direction.sources, Direction.derived].find? fun key => (value.field? key.name).isSome

def childNodes (value : Json) : List Json :=
  match value.keyDirection?.bind fun key => value.field? key.name with
  | some (.object groups) => groups.flatMap fun group => group.2.items?.getD []
  | _ => []

/-- The node at a place of a document: the numbers of the children on the way to it. -/
def at? : Json → List Nat → Option Json
  | value, [] => some value
  | value, position :: rest => value.childNodes[position]?.bind fun child => child.at? rest

end Json

namespace Tree

/-- The node at a place of a tree: the numbers of the children on the way to it. -/
def at? : Tree → List Nat → Option Tree
  | tree, [] => some tree
  | tree, position :: rest => tree.children.links[position]?.bind fun link => link.2.at? rest

open List (Forall₂)

variable {parent : Direction} {value : Json} {tree : Tree}

/-! ## Nodes of the grammar are read -/

theorem exists_readDirection (id : DatasetId) (parent : Direction)
    {fields : List (String × Json)}
    (honeKey : fields.lookup Direction.sources.name = none ∨
      fields.lookup Direction.derived.name = none) :
    ∃ direction, readDirection id parent fields = .ok direction := by
  rw [readDirection.eq_def]
  rcases honeKey with hnone | hnone
  · rw [hnone]
    cases fields.lookup Direction.derived.name with
    | none => exact ⟨parent, rfl⟩
    | some _ => exact ⟨.derived, rfl⟩
  · rw [hnone]
    cases fields.lookup Direction.sources.name with
    | none => exact ⟨parent, rfl⟩
    | some _ => exact ⟨.sources, rfl⟩

mutual

/-- A node of the grammar is read under any parent, and so are children and lists of nodes. -/
theorem exists_ofNode (parent : Direction) :
    ∀ {value : Json}, value.IsNode → ∃ tree, ofNode parent value = .ok tree
  | _, @Json.IsNode.object fields ⟨written, id, hwritten, hid⟩ hhome honeKey hchildren => by
      have hread : readId (fields.lookup "dataset_id") = .ok id :=
        readId_eq_ok_iff.2 ⟨written, hwritten, hid⟩
      obtain ⟨home, hhome⟩ : ∃ home, readHome id (fields.lookup "home") = .ok home := by
        rcases hhome with hnone | ⟨text, htext⟩
        · exact ⟨none, readHome_eq_ok_iff.2 (.inl ⟨hnone, rfl⟩)⟩
        · exact ⟨some text, readHome_eq_ok_iff.2 (.inr ⟨text, htext, rfl⟩)⟩
      obtain ⟨direction, hdirection⟩ := exists_readDirection id parent honeKey
      obtain ⟨children, hchildren⟩ :
          ∃ children, childrenOf id direction fields = .ok children := by
        rw [childrenOf_eq]
        cases hkey : fields.lookup direction.name with
        | none => exact ⟨.unknown, rfl⟩
        | some value => exact exists_childrenIn id direction (hchildren direction value hkey)
      exact ⟨.node direction id home children,
        ofNode_eq_ok_iff.2 ⟨fields, rfl, hread, hhome, hdirection, hchildren⟩⟩

theorem exists_childrenIn (id : DatasetId) (direction : Direction) :
    ∀ {value : Json}, value.IsChildren → ∃ children, childrenIn id direction value = .ok children
  | _, .null => ⟨.unknown, rfl⟩
  | _, @Json.IsChildren.object groups hlists => by
      have hread : ∀ group ∈ groups, ∃ read : String × List Tree, ∃ items,
          group = (read.1, .array items) ∧ nodesOf direction items = .ok read.2 := by
        intro group hgroup
        obtain ⟨items, trees, hitems, htrees⟩ := exists_nodesOf direction (hlists group hgroup)
        exact ⟨(group.1, trees), items, Prod.ext rfl hitems, htrees⟩
      obtain ⟨trees, htrees⟩ := exists_forall₂ hread
      exact ⟨_, bind_eq_ok.2 ⟨trees, groupsOf_eq_ok_iff.2 htrees, rfl⟩⟩

theorem exists_nodesOf (direction : Direction) :
    ∀ {value : Json}, value.IsNodeList →
      ∃ items trees, value = .array items ∧ nodesOf direction items = .ok trees
  | _, @Json.IsNodeList.array items hnodes => by
      obtain ⟨trees, htrees⟩ :=
        exists_forall₂ fun node hnode => exists_ofNode direction (hnodes node hnode)
      exact ⟨items, trees, rfl, nodesOf_eq_ok_iff.2 htrees⟩

end

/-! ## What is read is a node of the grammar -/

theorem isNode_of_ofNode (hread : ofNode parent value = .ok tree) : value.IsNode := by
  induction tree using Tree.induction generalizing parent value with
  | node direction id home children ih =>
      obtain ⟨fields, rfl, hid, hhome, hdirection, hchildren⟩ := ofNode_eq_ok_iff.1 hread
      obtain ⟨written, hwritten, hspelled⟩ := readId_eq_ok_iff.1 hid
      refine .object ⟨written, id, hwritten, hspelled⟩ ?home ?oneKey ?children
      case home =>
        rcases readHome_eq_ok_iff.1 hhome with ⟨hnone, _⟩ | ⟨text, htext, _⟩
        · exact .inl hnone
        · exact .inr ⟨text, htext⟩
      case oneKey =>
        have hother := (readDirection_eq_ok_iff.1 hdirection).1
        cases direction with
        | sources => exact .inr hother
        | derived => exact .inl hother
      case children =>
        intro key value hkey
        have hfield : (Json.object fields).field? key.name = some value := hkey
        obtain rfl := eq_direction_of_field? hread (hfield ▸ Option.some_ne_none value)
        rcases childrenOf_eq_ok_iff.1 hchildren with ⟨hnone | hnull, _⟩ | ⟨groups, trees, h⟩
        · cases hnone.symm.trans hkey
        · cases hnull.symm.trans hkey
          exact .null
        · obtain ⟨hgroups, htrees, _⟩ := h
          cases hgroups.symm.trans hkey
          refine .object fun group hgroup => ?_
          obtain ⟨read, _, items, rfl, _⟩ :=
            exists_right_of_forall₂ (groupsOf_eq_ok_iff.1 htrees) hgroup
          refine .array fun node hnode => ?_
          obtain ⟨_, link, hlink, hbelow⟩ := exists_link_of_childNode hread
            ⟨groups, read.1, items, hfield, hgroup, hnode⟩
          exact ih link hlink hbelow

/-- The nodes of the grammar are what is read. -/
theorem exists_ofNode_iff (parent : Direction) (value : Json) :
    (∃ tree, ofNode parent value = .ok tree) ↔ value.IsNode :=
  ⟨fun ⟨_, hread⟩ => isNode_of_ofNode hread, exists_ofNode parent⟩

instance (value : Json) : Decidable value.IsNode :=
  decidable_of_iff _ (isOk_iff.trans (exists_ofNode_iff .sources value))

example : ¬ (Json.object [("dataset_id", .text "00000000000000000000000000000001"),
    ("derived", .object [("ard", .array [.object []])])]).IsNode := by decide +kernel

/-! ## Refusals -/

/-- A computation fails only because a document is malformed. -/
def RefusesMalformed {α : Type} (result : Except LineageError α) : Prop :=
  ∀ error, result = .error error → ∃ fault, error = .malformedDocument fault

section Refusals

variable {α β : Type}

@[simp]
theorem refusesMalformed_ok (result : α) : RefusesMalformed (.ok result) :=
  nofun

@[simp]
theorem refusesMalformed_malformed (fault : DocumentFault) :
    RefusesMalformed (malformed fault : Except LineageError α) := by
  rintro _ ⟨⟩
  exact ⟨fault, rfl⟩

theorem RefusesMalformed.bind {first : Except LineageError α}
    {second : α → Except LineageError β} (hfirst : RefusesMalformed first)
    (hsecond : ∀ result, RefusesMalformed (second result)) :
    RefusesMalformed (do second (← first)) := by
  cases first with
  | error failure =>
      rintro _ ⟨⟩
      exact hfirst failure rfl
  | ok result => exact hsecond result

end Refusals

theorem refusesMalformed_readId (field : Option Json) : RefusesMalformed (readId field) := by
  rw [readId.eq_def]
  split
  · split <;> simp
  · simp

theorem refusesMalformed_readHome (id : DatasetId) (field : Option Json) :
    RefusesMalformed (readHome id field) := by
  rw [readHome.eq_def]
  split <;> simp

theorem refusesMalformed_readDirection (id : DatasetId) (parent : Direction)
    (fields : List (String × Json)) : RefusesMalformed (readDirection id parent fields) := by
  rw [readDirection.eq_def]
  split <;> simp

theorem refusesMalformed_declaredDirection? (field : Option Json) :
    RefusesMalformed (declaredDirection? field) := by
  rw [declaredDirection?.eq_def]
  split
  · simp
  · simp
  · dsimp only
    split <;> simp
  · simp

mutual

/-- Every refusal on the way down a document is one of a malformed document. -/
theorem refusesMalformed_ofNode (parent : Direction) :
    ∀ value, RefusesMalformed (ofNode parent value)
  | .object fields => by
      rw [ofNode]
      refine (refusesMalformed_readId _).bind fun id => ?_
      refine (refusesMalformed_readHome id _).bind fun home => ?_
      refine (refusesMalformed_readDirection id parent fields).bind fun direction => ?_
      refine (refusesMalformed_childrenOf id direction fields).bind fun children => ?_
      exact refusesMalformed_ok _
  | .null | .bool _ | .number _ | .text _ | .array _ => refusesMalformed_malformed _

theorem refusesMalformed_childrenOf (id : DatasetId) (direction : Direction) :
    ∀ fields, RefusesMalformed (childrenOf id direction fields)
  | [] => refusesMalformed_ok _
  | (name, value) :: rest => by
      rw [childrenOf]
      split
      · exact refusesMalformed_childrenIn id direction value
      · exact refusesMalformed_childrenOf id direction rest

theorem refusesMalformed_childrenIn (id : DatasetId) (direction : Direction) :
    ∀ value, RefusesMalformed (childrenIn id direction value)
  | .null => refusesMalformed_ok _
  | .object groups => by
      rw [childrenIn]
      exact (refusesMalformed_groupsOf id direction groups).bind fun _ => refusesMalformed_ok _
  | .bool _ | .number _ | .text _ | .array _ => refusesMalformed_malformed _

theorem refusesMalformed_groupsOf (id : DatasetId) (direction : Direction) :
    ∀ groups, RefusesMalformed (groupsOf id direction groups)
  | [] => refusesMalformed_ok _
  | (_, .array items) :: rest => by
      rw [groupsOf]
      refine (refusesMalformed_nodesOf direction items).bind fun trees => ?_
      refine (refusesMalformed_groupsOf id direction rest).bind fun others => ?_
      exact refusesMalformed_ok _
  | (_, .null) :: _ | (_, .bool _) :: _ | (_, .number _) :: _ | (_, .text _) :: _
  | (_, .object _) :: _ => refusesMalformed_malformed _

theorem refusesMalformed_nodesOf (direction : Direction) :
    ∀ items, RefusesMalformed (nodesOf direction items)
  | [] => refusesMalformed_ok _
  | value :: rest => by
      rw [nodesOf]
      refine (refusesMalformed_ofNode direction value).bind fun tree => ?_
      refine (refusesMalformed_nodesOf direction rest).bind fun others => ?_
      exact refusesMalformed_ok _

end

theorem refusesMalformed_ofDocument (value : Json) (default : Direction) :
    RefusesMalformed (ofDocument value default) := by
  rw [ofDocument]
  refine (refusesMalformed_declaredDirection? _).bind fun declared => ?_
  refine (refusesMalformed_ofNode _ value).bind fun tree => ?_
  cases declared with
  | none => exact refusesMalformed_ok _
  | some direction =>
      change RefusesMalformed (if tree.direction = direction then Except.ok tree else _)
      split <;> simp

/-! ## The nodes that are read -/

theorem field?_eq_none_of_keyDirection? (hnone : value.keyDirection? = none) (key : Direction) :
    value.field? key.name = none := by
  have hmissing := List.find?_eq_none.1 hnone key (by cases key <;> simp)
  rwa [Option.not_isSome_iff_eq_none] at hmissing

theorem field?_ne_none_of_keyDirection? {key : Direction} (hkey : value.keyDirection? = some key) :
    value.field? key.name ≠ none := by
  have hgiven := List.find?_some hkey
  exact Option.isSome_iff_ne_none.1 hgiven

/-- A node has the direction of the key of its children, or else that of its parent. -/
theorem direction_of_ofNode (hread : ofNode parent value = .ok tree) :
    tree.direction = value.keyDirection?.getD parent := by
  cases hkey : value.keyDirection? with
  | none =>
      obtain ⟨fields, rfl, _, _, hdirection, _⟩ := ofNode_eq_ok_iff.1 hread
      have hmissing := field?_eq_none_of_keyDirection? hkey tree.direction
      exact (readDirection_eq_ok_iff.1 hdirection).2 hmissing
  | some key =>
      exact (eq_direction_of_field? hread (field?_ne_none_of_keyDirection? hkey)).symm

/-- The children of a node that was read are its nodes in the document, one by one. -/
theorem forall₂_childNodes (hread : ofNode parent value = .ok tree) :
    Forall₂ (fun source (link : String × Tree) => ofNode tree.direction source = .ok link.2)
      value.childNodes tree.children.links := by
  have hfield : (value.keyDirection?.bind fun key => value.field? key.name) =
      value.field? tree.direction.name := by
    cases hkey : value.keyDirection? with
    | none => exact (field?_eq_none_of_keyDirection? hkey tree.direction).symm
    | some key =>
        have hgiven := field?_ne_none_of_keyDirection? hkey
        rw [Option.bind_some, eq_direction_of_field? hread hgiven]
  rw [Json.childNodes, hfield]
  obtain ⟨fields, rfl, _, _, _, hchildren⟩ := ofNode_eq_ok_iff.1 hread
  rw [Json.field?]
  rcases childrenOf_eq_ok_iff.1 hchildren with
    ⟨hnone | hnull, hunknown⟩ | ⟨groups, trees, hgroups, htrees, hlinks⟩
  · rw [hnone, hunknown]
    exact .nil
  · rw [hnull, hunknown]
    exact .nil
  · rw [hgroups, hlinks, Children.links_ofGroups]
    refine List.rel_flatMap (groupsOf_eq_ok_iff.1 htrees) ?_
    rintro _ read ⟨items, rfl, hnodes⟩
    rw [List.forall₂_map_right_iff]
    exact nodesOf_eq_ok_iff.1 hnodes

/-! ## Nodes at their places -/

/-- Every node of a tree stands at a place. -/
theorem exists_at?_of_nodeAt {depth : Nat} {node : Tree} (hnode : tree.NodeAt depth node) :
    ∃ place, tree.at? place = some node := by
  induction hnode with
  | root tree => exact ⟨[], rfl⟩
  | under hlink _ ih =>
      obtain ⟨place, hplace⟩ := ih
      obtain ⟨position, hposition⟩ := List.mem_iff_getElem?.1 hlink
      exact ⟨position :: place, Option.bind_eq_some_iff.2 ⟨_, hposition, hplace⟩⟩

/-- The child at a position of a node is read from the child at the same position of its value. -/
theorem ofNode_child (hread : ofNode parent value = .ok tree) {position : Nat} {source : Json}
    {link : String × Tree} (hsource : value.childNodes[position]? = some source)
    (hlink : tree.children.links[position]? = some link) :
    ofNode tree.direction source = .ok link.2 := by
  have hrelated := rel_getElem? (forall₂_childNodes hread) position
  rw [hsource, hlink] at hrelated
  cases hrelated with
  | some hchild => exact hchild

/-- A tree has a node exactly at the places where its document has one. -/
theorem isSome_at?_of_ofNode (hread : ofNode parent value = .ok tree) (place : List Nat) :
    (tree.at? place).isSome = (value.at? place).isSome := by
  induction place generalizing parent value tree with
  | nil => rfl
  | cons position rest ih =>
      have hchild := rel_getElem? (forall₂_childNodes hread) position
      rw [at?, Json.at?]
      generalize value.childNodes[position]? = source at hchild ⊢
      generalize tree.children.links[position]? = link at hchild ⊢
      cases hchild with
      | none => rfl
      | some hchild => exact ih hchild

/-- Below the root, a node has the direction of the key of its children in the document, or else
that of its parent in the tree. -/
theorem direction_at?_of_ofNode (hread : ofNode parent value = .ok tree) {place : List Nat}
    {position : Nat} {above node : Tree} {source : Json}
    (habove : tree.at? place = some above)
    (hnode : tree.at? (place ++ [position]) = some node)
    (hsource : value.at? (place ++ [position]) = some source) :
    node.direction = source.keyDirection?.getD above.direction := by
  -- Tree and document are entered together, until the parent is the root of what is left.
  induction place generalizing parent value tree with
  | nil =>
      cases habove
      obtain ⟨link, hlink, hnode⟩ := Option.bind_eq_some_iff.1 hnode
      obtain ⟨child, hchild, hsource⟩ := Option.bind_eq_some_iff.1 hsource
      cases hnode
      cases hsource
      exact direction_of_ofNode (ofNode_child hread hchild hlink)
  | cons first rest ih =>
      obtain ⟨link, hlink, habove⟩ := Option.bind_eq_some_iff.1 habove
      obtain ⟨other, hother, hnode⟩ := Option.bind_eq_some_iff.1 hnode
      obtain ⟨child, hchild, hsource⟩ := Option.bind_eq_some_iff.1 hsource
      cases hlink.symm.trans hother
      exact ih (ofNode_child hread hchild hlink) habove hnode hsource

/-! ## Documents -/

/-- A document is read exactly if it is a node of the grammar whose root agrees on its
direction. -/
theorem exists_ofDocument_iff {default : Direction} :
    (∃ tree, ofDocument value default = .ok tree) ↔ value.IsNode ∧ value.DirectionAgrees := by
  constructor
  · intro ⟨tree, hread⟩
    obtain ⟨declared, hdeclared, hnode, hsame⟩ := ofDocument_eq_ok_iff.1 hread
    refine ⟨isNode_of_ofNode hnode, ?_⟩
    rcases declaredDirection?_eq_ok_iff.1 hdeclared with ⟨hnone, _⟩ | ⟨direction, hnamed, rfl⟩
    · exact .inl hnone
    · refine .inr ⟨direction, hnamed, fun key hkey => ?_⟩
      rw [← hsame direction rfl]
      exact eq_direction_of_field? hnode hkey
  · rintro ⟨hnode, hnone | ⟨direction, hnamed, hkeys⟩⟩
    · obtain ⟨tree, hread⟩ := exists_ofNode default hnode
      refine ⟨tree, ofDocument_eq_ok_iff.2 ⟨none, ?_, hread, nofun⟩⟩
      exact declaredDirection?_eq_ok_iff.2 (.inl ⟨hnone, rfl⟩)
    · obtain ⟨tree, hread⟩ := exists_ofNode direction hnode
      refine ⟨tree, ofDocument_eq_ok_iff.2 ⟨some direction, ?_, hread, ?_⟩⟩
      · exact declaredDirection?_eq_ok_iff.2 (.inr ⟨direction, hnamed, rfl⟩)
      · rintro _ ⟨⟩
        rw [direction_of_ofNode hread]
        cases hkey : value.keyDirection? with
        | none => rfl
        | some key => exact hkeys key (field?_ne_none_of_keyDirection? hkey)

/-- The root is read under the direction that it names, or else under the one that was asked
for. -/
theorem ofNode_of_named {default : Direction} (hread : ofDocument value default = .ok tree) :
    (Json.LeftOut (value.field? "direction") → ofNode default value = .ok tree) ∧
      ∀ direction, value.NamesDirection direction → ofNode direction value = .ok tree := by
  obtain ⟨declared, hdeclared, hnode, _⟩ := ofDocument_eq_ok_iff.1 hread
  constructor
  · intro hnone
    cases hdeclared.symm.trans (declaredDirection?_eq_ok_iff.2 (.inl ⟨hnone, rfl⟩))
    exact hnode
  · intro direction hnamed
    have hfound := declaredDirection?_eq_ok_iff.2 (.inr ⟨direction, hnamed, rfl⟩)
    cases hdeclared.symm.trans hfound
    exact hnode

/-- A document is read exactly if it is a node of the grammar, and its root names no direction
or that of the key of its children.  All other documents are refused as malformed.  The tree that
is read has a node at every place of the document and nowhere else.  The direction of a node is
that of the key of its children; without that key, the root has the direction that it names or
else the one that was asked for, and every other node has that of its parent. -/
theorem ofDocument_accepts_iff (value : Json) (default : Direction) :
    ((∃ tree, ofDocument value default = .ok tree) ↔
        value.IsNode ∧ value.DirectionAgrees) ∧
      (∀ error, ofDocument value default = .error error →
        ∃ fault, error = .malformedDocument fault) ∧
      ∀ tree, ofDocument value default = .ok tree →
        (Json.LeftOut (value.field? "direction") →
          tree.direction = value.keyDirection?.getD default) ∧
        (∀ direction, value.NamesDirection direction →
          tree.direction = value.keyDirection?.getD direction) ∧
        (∀ depth node, tree.NodeAt depth node → ∃ place, tree.at? place = some node) ∧
        (∀ place, (tree.at? place).isSome = (value.at? place).isSome) ∧
        ∀ place position above node source, tree.at? place = some above →
          tree.at? (place ++ [position]) = some node →
          value.at? (place ++ [position]) = some source →
            node.direction = source.keyDirection?.getD above.direction := by
  refine ⟨exists_ofDocument_iff, refusesMalformed_ofDocument value default, fun tree hread => ?_⟩
  obtain ⟨hasked, hnamed⟩ := ofNode_of_named hread
  obtain ⟨parent, hnode⟩ := ofNode_of_ofDocument hread
  refine ⟨fun hnone => direction_of_ofNode (hasked hnone), fun direction hdirection => ?_,
    fun depth node => exists_at?_of_nodeAt, isSome_at?_of_ofNode hnode, ?_⟩
  · exact direction_of_ofNode (hnamed direction hdirection)
  · intro place position above node source
    exact direction_at?_of_ofNode hnode

end Tree

end DatasetLineage
