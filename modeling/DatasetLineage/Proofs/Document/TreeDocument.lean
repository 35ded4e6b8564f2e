import DatasetLineage.Document.Ingest
import DatasetLineage.Proofs.DatasetId
import DatasetLineage.Proofs.Document.Reading
import DatasetLineage.Proofs.Tree.Nodes

/-!
# Trees and their documents

The document of a tree says everything but two things.  It gives no direction for a node
that is unexplored, other than the root, and it does not tell a node that is populated by
nothing from a node without children.  So what is read from it is the tree itself exactly if
no node is populated by nothing and the unexplored nodes have the direction of their parents.
-/

namespace DatasetLineage

namespace Tree

mutual

/-- What is read from the document of a tree under a parent with the given direction. -/
def readBack (parent : Direction) : Tree → Tree
  | .node _ id home .unknown => .node parent id home .unknown
  | .node direction id home .empty => .node direction id home .empty
  | .node direction id home (.populated groups) =>
      .node direction id home (.ofGroups (groupsReadBack direction groups))

def groupsReadBack (parent : Direction) :
    List (String × List Tree) → List (String × List Tree)
  | [] => []
  | (classifier, nodes) :: rest =>
      (classifier, nodesReadBack parent nodes) :: groupsReadBack parent rest

def nodesReadBack (parent : Direction) : List Tree → List Tree
  | [] => []
  | tree :: rest => readBack parent tree :: nodesReadBack parent rest

end

theorem nodesReadBack_eq (parent : Direction) (nodes : List Tree) :
    nodesReadBack parent nodes = nodes.map (readBack parent) := by
  induction nodes with
  | nil => rfl
  | cons tree rest ih => rw [nodesReadBack, ih, List.map_cons]

theorem groupsReadBack_eq (parent : Direction) (groups : List (String × List Tree)) :
    groupsReadBack parent groups =
      groups.map fun group => (group.1, group.2.map (readBack parent)) := by
  induction groups with
  | nil => rfl
  | cons group rest ih => rw [groupsReadBack, ih, nodesReadBack_eq, List.map_cons]

@[simp]
theorem id_readBack (parent : Direction) (tree : Tree) : (tree.readBack parent).id = tree.id := by
  obtain ⟨direction, id, home, children⟩ := tree
  cases children <;> rfl

@[simp]
theorem home_readBack (parent : Direction) (tree : Tree) :
    (tree.readBack parent).home = tree.home := by
  obtain ⟨direction, id, home, children⟩ := tree
  cases children <;> rfl

theorem direction_readBack (parent : Direction) (tree : Tree) :
    (tree.readBack parent).direction =
      if tree.children.isUnknown then parent else tree.direction := by
  obtain ⟨direction, id, home, children⟩ := tree
  cases children <;> rfl

theorem children_readBack (parent : Direction) (tree : Tree) :
    (tree.readBack parent).children =
      match tree.children with
      | .unknown => .unknown
      | .empty => .empty
      | .populated groups => .ofGroups (groupsReadBack tree.direction groups) := by
  obtain ⟨direction, id, home, children⟩ := tree
  cases children <;> rfl

/-! ## The fields of a node -/

section Fields

variable {extra : List (String × Json)}

def childValue? : Children Tree → Option Json
  | .unknown => none
  | .empty => some (.object [])
  | .populated groups => some (.object (groupFields groups))

theorem childrenFields_eq (direction : Direction) (children : Children Tree) :
    childrenFields direction children =
      ((childValue? children).map fun value => (direction.name, value)).toList := by
  cases children <;> rfl

/-- A field that is written if there is something to write is found by its name. -/
theorem lookup_optional {α : Type} (name field : String) (write : α → Json) (content : Option α) :
    ((content.map fun value => (field, write value)).toList).lookup name =
      if name = field then content.map write else none := by
  cases content with
  | none => simp
  | some value =>
      by_cases hname : name = field
      · simp [hname]
      · simp [List.lookup_cons, beq_false_of_ne hname, hname]

/-- Of the fields of a node, a name other than the id finds the home or the children. -/
theorem lookup_nodeFields {name : String} (hextra : extra.lookup name = none)
    (hid : name ≠ "dataset_id") (direction : Direction) (id : DatasetId) (home : Option String)
    (children : Children Tree) :
    (nodeFields extra (.node direction id home children)).lookup name =
      if name = "home" then home.map .text
      else if name = direction.name then childValue? children else none := by
  have hhome := lookup_optional name "home" Json.text home
  have hchildren := lookup_optional name direction.name (fun value => value) (childValue? children)
  rw [Option.map_id'] at hchildren
  cases direction with
  | sources =>
      simp only [nodeFields, childrenFields_eq, List.lookup_cons, beq_false_of_ne hid,
        List.lookup_append, hextra, hhome, hchildren, Option.none_or]
      by_cases hname : name = "home" <;> simp [hname, Direction.name]
  | derived =>
      simp only [nodeFields, childrenFields_eq, List.lookup_cons, beq_false_of_ne hid,
        List.lookup_append, hextra, hhome, hchildren]
      by_cases hname : name = "home" <;> simp [hname, Direction.name]

theorem lookup_id_nodeFields (extra : List (String × Json)) (tree : Tree) :
    (nodeFields extra tree).lookup "dataset_id" = some (.text (toString tree.id)) := by
  obtain ⟨direction, id, home, children⟩ := tree
  cases direction <;> simp [nodeFields, Tree.id]

theorem lookup_home_nodeFields (hextra : ∀ name ≠ "direction", extra.lookup name = none)
    (tree : Tree) : (nodeFields extra tree).lookup "home" = tree.home.map .text := by
  obtain ⟨direction, id, home, children⟩ := tree
  rw [lookup_nodeFields (hextra "home" (by decide)) (by decide), if_pos rfl]
  rfl

/-- A node has the field of its own direction, if it is explored, and no field of the other. -/
theorem lookup_name_nodeFields (hextra : ∀ name ≠ "direction", extra.lookup name = none)
    (tree : Tree) (wanted : Direction) :
    (nodeFields extra tree).lookup wanted.name =
      if wanted = tree.direction then childValue? tree.children else none := by
  obtain ⟨direction, id, home, children⟩ := tree
  have hnone := hextra wanted.name (by cases wanted <;> decide)
  rw [lookup_nodeFields hnone (by cases wanted <;> decide), if_neg (by cases wanted <;> decide)]
  cases wanted <;> cases direction <;> rfl

end Fields

/-! ## Reading what was written -/

theorem readId_toString (id : DatasetId) :
    readId (some (.text (toString id))) = .ok id := by
  rw [readId, DatasetId.ofText?_toString]

theorem readHome_map (id : DatasetId) (home : Option String) :
    readHome id (home.map .text) = .ok home := by
  cases home <;> rfl

/-- The document of a node is read back if the groups of its children are.  The further
fields of the root do not matter. -/
theorem ofNode_nodeFields_of_groups {extra : List (String × Json)}
    (hextra : ∀ name ≠ "direction", extra.lookup name = none) (parent : Direction) (tree : Tree)
    (hgroups : ∀ groups, tree.children = .populated groups →
      groupsOf tree.id tree.direction (groupFields groups) =
        .ok (groupsReadBack tree.direction groups)) :
    ofNode parent (.object (nodeFields extra tree)) = .ok (tree.readBack parent) := by
  have hid := lookup_id_nodeFields extra tree
  have hhome := lookup_home_nodeFields hextra tree
  have hkey := lookup_name_nodeFields hextra tree
  have hdirection : readDirection tree.id parent (nodeFields extra tree) =
      .ok (if tree.children.isUnknown then parent else tree.direction) := by
    rw [readDirection.eq_def, hkey, hkey]
    cases tree.direction <;> cases tree.children <;> rfl
  rw [ofNode_eq_ok_iff]
  refine ⟨_, rfl, ?_⟩
  rw [hid, hhome, childrenOf_eq, hkey, id_readBack, home_readBack, direction_readBack,
    children_readBack]
  refine ⟨readId_toString tree.id, readHome_map tree.id tree.home, hdirection, ?_⟩
  cases hchildren : tree.children with
  | unknown => simp [childValue?]
  | empty => simp [childValue?, Children.isUnknown, childrenIn, groupsOf, Children.ofGroups]
  | populated groups =>
      simp [childValue?, Children.isUnknown, childrenIn, hgroups groups hchildren]

mutual

/-- Reading what was written for a node, for groups of children and for a list of them. -/
theorem ofNode_nodeFields (parent : Direction) :
    ∀ tree : Tree, ofNode parent (.object (nodeFields [] tree)) = .ok (tree.readBack parent)
  | .node _ id _ .unknown =>
      ofNode_nodeFields_of_groups (fun _ _ => rfl) parent _ (by simp [Tree.children])
  | .node _ id _ .empty =>
      ofNode_nodeFields_of_groups (fun _ _ => rfl) parent _ (by simp [Tree.children])
  | .node direction id _ (.populated groups) =>
      ofNode_nodeFields_of_groups (fun _ _ => rfl) parent _ (by
        rintro _ ⟨⟩
        exact groupsOf_groupFields id direction groups)

theorem groupsOf_groupFields (id : DatasetId) (direction : Direction) :
    ∀ groups : List (String × List Tree),
      groupsOf id direction (groupFields groups) = .ok (groupsReadBack direction groups)
  | [] => rfl
  | (classifier, nodes) :: rest => by
      rw [groupFields, groupsOf, nodesOf_nodeValues direction nodes,
        groupsOf_groupFields id direction rest]
      rfl

theorem nodesOf_nodeValues (direction : Direction) :
    ∀ nodes : List Tree, nodesOf direction (nodeValues nodes) = .ok (nodesReadBack direction nodes)
  | [] => rfl
  | tree :: rest => by
      rw [nodeValues, nodesOf, ofNode_nodeFields direction tree, nodesOf_nodeValues direction rest]
      rfl

end

theorem lookup_direction_nodeFields (written : Json) (tree : Tree) :
    (nodeFields [("direction", written)] tree).lookup "direction" = some written := by
  obtain ⟨direction, id, home, children⟩ := tree
  cases direction with
  | sources => simp [nodeFields, List.lookup_cons]
  | derived =>
      have hchildren := lookup_optional "direction" "derived" (fun value => value)
        (childValue? children)
      rw [if_neg (by decide)] at hchildren
      simp [nodeFields, childrenFields_eq, List.lookup_cons, List.lookup_append, Direction.name,
        hchildren]

theorem declaredDirection?_name (direction : Direction) :
    declaredDirection? (some (.text direction.name)) = .ok (some direction) := by
  cases direction <;> rfl

/-- The document of a tree is always read, whatever direction is asked for. -/
theorem ofDocument_toDocument (tree : Tree) (default : Direction) :
    ofDocument tree.toDocument default = .ok (tree.readBack tree.direction) := by
  have hdeclared : declaredDirection? (tree.toDocument.field? "direction") =
      .ok (some tree.direction) := by
    rw [toDocument, Json.field?, lookup_direction_nodeFields]
    exact declaredDirection?_name tree.direction
  have htree : ofNode tree.direction tree.toDocument = .ok (tree.readBack tree.direction) := by
    apply ofNode_nodeFields_of_groups
    · intro name hname
      simp [List.lookup_cons, beq_false_of_ne hname]
    · intro groups _
      exact groupsOf_groupFields tree.id tree.direction groups
  have hdirection : (tree.readBack tree.direction).direction = tree.direction := by
    rw [direction_readBack, ite_self]
  refine ofDocument_eq_ok_iff.2 ⟨_, hdeclared, htree, ?_⟩
  rintro _ ⟨⟩
  exact hdirection

theorem isIngest_toDocument (tree : Tree) : isIngest tree.toDocument = false := by
  rw [isIngest, toDocument, Json.field?, Json.field?, lookup_id_nodeFields]
  simp

/-! ## Trees that their documents tell exactly -/

/-- A tree that its document says everything about. -/
structure Expressible (tree : Tree) : Prop where
  populated : ∀ depth node, tree.NodeAt depth node → node.children ≠ .populated []
  inherited : ∀ depth node, tree.NodeAt depth node → ∀ link ∈ node.children.links,
    link.2.children = .unknown → link.2.direction = node.direction

theorem expressible_iff {tree : Tree} :
    tree.Expressible ↔ tree.children ≠ .populated [] ∧
      ∀ link ∈ tree.children.links,
        (link.2.children = .unknown → link.2.direction = tree.direction) ∧
          link.2.Expressible := by
  constructor
  · intro hexpressible
    refine ⟨hexpressible.populated 0 tree (.root tree), ?_⟩
    intro link hlink
    refine ⟨hexpressible.inherited 0 tree (.root tree) link hlink, ?_, ?_⟩
    · intro depth node hnode
      exact hexpressible.populated (depth + 1) node (.under hlink hnode)
    · intro depth node hnode
      exact hexpressible.inherited (depth + 1) node (.under hlink hnode)
  · intro ⟨hpopulated, hlinks⟩
    constructor
    · intro depth node hnode
      cases hnode with
      | root => exact hpopulated
      | under hlink hnode => exact (hlinks _ hlink).2.populated _ _ hnode
    · intro depth node hnode
      cases hnode with
      | root => exact fun link hlink => (hlinks link hlink).1
      | under hlink hnode => exact (hlinks _ hlink).2.inherited _ _ hnode

theorem forall_links_populated {groups : List (String × List Tree)} {property : Tree → Prop} :
    (∀ link ∈ Children.links (.populated groups), property link.2) ↔
      ∀ group ∈ groups, ∀ node ∈ group.2, property node := by
  simp only [Children.links, Children.groups, List.forall_mem_flatMap, List.forall_mem_map]

/-- Groups of children are read back exactly if every child is. -/
theorem groupsReadBack_eq_iff {parent : Direction} {groups : List (String × List Tree)} :
    groupsReadBack parent groups = groups ↔
      ∀ link ∈ Children.links (.populated groups), link.2.readBack parent = link.2 := by
  have hnodes : ∀ nodes : List Tree, nodes.map (readBack parent) = nodes ↔
      ∀ node ∈ nodes, node.readBack parent = node := by
    intro nodes
    have hmap := @List.map_inj_left _ _ nodes (readBack parent) fun node => node
    rwa [List.map_id'] at hmap
  have hgroups := @List.map_inj_left _ _ groups
    (fun group => (group.1, group.2.map (readBack parent))) fun group => group
  rw [List.map_id', ← groupsReadBack_eq] at hgroups
  rw [hgroups, @forall_links_populated groups fun node => node.readBack parent = node]
  simp only [Prod.ext_iff, true_and, hnodes]

/-- A tree is read back from its document exactly if it is expressible, and an unexplored node
only under a parent of its own direction. -/
theorem readBack_eq_iff {parent : Direction} {tree : Tree} :
    tree.readBack parent = tree ↔
      (tree.children = .unknown → tree.direction = parent) ∧ tree.Expressible := by
  induction tree using Tree.induction generalizing parent with
  | node direction id home children ih =>
      rw [expressible_iff]
      cases children with
      | unknown => simp [readBack, Tree.children, Tree.direction, Children.links,
          Children.groups, eq_comm]
      | empty => simp [readBack, Tree.children, Children.links, Children.groups]
      | populated groups =>
          have hgroups : Children.ofGroups (groupsReadBack direction groups) =
              .populated groups ↔ groups ≠ [] ∧ groupsReadBack direction groups = groups := by
            cases groups with
            | nil => simp [groupsReadBack, Children.ofGroups]
            | cons group rest => simp [groupsReadBack, Children.ofGroups]
          have hlinks : (∀ link ∈ Children.links (.populated groups),
                link.2.readBack direction = link.2) ↔
              ∀ link ∈ Children.links (.populated groups),
                (link.2.children = .unknown → link.2.direction = direction) ∧
                  link.2.Expressible :=
            forall₂_congr fun link hlink => ih link hlink
          calc readBack parent (.node direction id home (.populated groups)) =
                .node direction id home (.populated groups)
            _ ↔ Children.ofGroups (groupsReadBack direction groups) = .populated groups := by
                simp [readBack]
            _ ↔ groups ≠ [] ∧ ∀ link ∈ Children.links (.populated groups),
                  (link.2.children = .unknown → link.2.direction = direction) ∧
                    link.2.Expressible := by
                rw [hgroups, groupsReadBack_eq_iff, hlinks]
            _ ↔ _ := by
                have hpopulated : groups ≠ [] ↔ Children.populated groups ≠ .populated [] := by
                  rw [Ne, Ne, Children.populated.injEq]
                rw [hpopulated]
                simp [Tree.children, Tree.direction]

/-- A document tells its tree exactly, whatever direction is asked for, if and only if no node
of the tree is populated by nothing and every unexplored node below the root has the direction
of its parent.  It is never taken for ingest metadata. -/
theorem ofDocument_toDocument_iff (tree : Tree) (default : Direction) :
    (ofDocument tree.toDocument default = .ok tree ↔
      (∀ depth node, tree.NodeAt depth node → node.children ≠ .populated []) ∧
        ∀ depth node, tree.NodeAt depth node → ∀ link ∈ node.children.links,
          link.2.children = .unknown → link.2.direction = node.direction) ∧
      isIngest tree.toDocument = false := by
  constructor
  · rw [ofDocument_toDocument, Except.ok.injEq, readBack_eq_iff]
    constructor
    · intro ⟨_, hexpressible⟩
      exact ⟨hexpressible.populated, hexpressible.inherited⟩
    · intro ⟨hpopulated, hinherited⟩
      exact ⟨fun _ => rfl, hpopulated, hinherited⟩
  · exact isIngest_toDocument tree

end Tree

end DatasetLineage
