import DatasetLineage.LineageError

/-!
# Trees of lineage

A tree is a partial view of lineage from one dataset.  The children of a node
are grouped by classifier, groups in ascending order of their classifiers and
children in the order in which they were given.  A node can also be unexplored,
or known to have no children.

A tree is a plain value: nothing keeps it from repeating a dataset, or from
mixing directions.  The operations that use trees check what they need.
-/

namespace DatasetLineage

/-- What is known about the children of a node. -/
inductive Children (Node : Type) where
  /-- Not explored: there may be children that are not shown. -/
  | unknown
  /-- Known to have no children. -/
  | empty
  | populated (groups : List (String × List Node))

/-- A dataset with what is known of its lineage in one direction. -/
inductive Tree where
  | node (direction : Direction) (id : DatasetId) (home : Option String)
      (children : Children Tree)

namespace Children

variable {Node : Type}

/-- Children from their groups; without groups there are no children. -/
def ofGroups (groups : List (String × List Node)) : Children Node :=
  if groups.isEmpty then .empty else .populated groups

def isUnknown : Children Node → Bool
  | .unknown => true
  | _ => false

/-- Whether groups of children are given, be they empty lists. -/
def hasDetail : Children Node → Bool
  | .populated _ => true
  | _ => false

/-- The groups of children; none for unexplored nodes and leaves. -/
def groups : Children Node → List (String × List Node)
  | .populated groups => groups
  | _ => []

/-- Every child with its classifier. -/
def links (children : Children Node) : List (String × Node) :=
  children.groups.flatMap fun group => group.2.map fun node => (group.1, node)

end Children

/-- Put a node at the end of the group of its classifier. -/
def addToGroup {Node : Type} (classifier : String) (node : Node) :
    List (String × List Node) → List (String × List Node)
  | [] => [(classifier, [node])]
  | (other, nodes) :: rest =>
      if classifier < other then (classifier, [node]) :: (other, nodes) :: rest
      else if classifier = other then (other, nodes ++ [node]) :: rest
      else (other, nodes) :: addToGroup classifier node rest

namespace Tree

def direction : Tree → Direction
  | .node direction _ _ _ => direction

def id : Tree → DatasetId
  | .node _ id _ _ => id

def home : Tree → Option String
  | .node _ _ home _ => home

def children : Tree → Children Tree
  | .node _ _ _ children => children

instance : Inhabited Tree := ⟨.node default default none .unknown⟩

/-- An unexplored node. -/
def placeholder (id : DatasetId) (direction : Direction) : Tree :=
  .node direction id none .unknown

/-- A node known to have no children. -/
def leaf (id : DatasetId) (direction : Direction) : Tree :=
  .node direction id none .empty

/-- A tree of one level from the ids listed under each classifier.  The children
are unexplored and carry `home`; without a listing the root is unexplored too. -/
def ofListing (id : DatasetId) (direction : Direction)
    (listing : Option (List (String × List DatasetId))) (home : Option String) : Tree :=
  .node direction id none <|
    match listing with
    | none => .unknown
    | some listing => .ofGroups <| listing.map fun group =>
        (group.1, group.2.map fun child => .node direction child home .unknown)

end Tree

end DatasetLineage
