import DatasetLineage.Relation
import DatasetLineage.Tree.Basic

/-!
# Walking a tree

Counting, searching and comparing trees, and the ids below a root.  Children are
visited group by group, in the order in which the tree holds them.
-/

namespace DatasetLineage

namespace Tree

mutual

/-- Number of nodes, a repeated dataset counted once per occurrence. -/
def nodeCount : Tree → Nat
  | .node _ _ _ (.populated groups) => groupsNodeCount groups + 1
  | .node _ _ _ _ => 1

def groupsNodeCount : List (String × List Tree) → Nat
  | [] => 0
  | (_, nodes) :: rest => listNodeCount nodes + groupsNodeCount rest

def listNodeCount : List Tree → Nat
  | [] => 0
  | tree :: rest => nodeCount tree + listNodeCount rest

end

mutual

/-- The first node with the given id, a parent before its children. -/
def find? (wanted : DatasetId) : Tree → Option Tree
  | .node direction id home children =>
      if id = wanted then some (.node direction id home children)
      else
        match children with
        | .populated groups => findInGroups? wanted groups
        | _ => none

def findInGroups? (wanted : DatasetId) : List (String × List Tree) → Option Tree
  | [] => none
  | (_, nodes) :: rest => findInList? wanted nodes <|> findInGroups? wanted rest

def findInList? (wanted : DatasetId) : List Tree → Option Tree
  | [] => none
  | tree :: rest => find? wanted tree <|> findInList? wanted rest

end

mutual

/-- The ids of all nodes below the root.  A node whose id comes again among its
own descendants makes the tree cyclic; a dataset repeated on different branches
does not. -/
def childDatasets : Tree → Except LineageError IdSet
  | .node _ id _ (.populated groups) => groupsDatasets id groups OrderedMap.empty
  | .node _ _ _ _ => .ok OrderedMap.empty

/-- The ids found so far and those of further groups of children of `parent`. -/
def groupsDatasets (parent : DatasetId) :
    List (String × List Tree) → IdSet → Except LineageError IdSet
  | [], found => .ok found
  | (_, nodes) :: rest, found => do
      groupsDatasets parent rest (← listDatasets parent nodes found)

/-- The ids found so far and those of further children of `parent`. -/
def listDatasets (parent : DatasetId) :
    List Tree → IdSet → Except LineageError IdSet
  | [], found => .ok found
  | child :: rest, found => do
      let below ← childDatasets child
      let here := IdSet.add below child.id
      if here.contains parent then throw (.cyclicTree parent)
      listDatasets parent rest (found.override here)

end

mutual

def same : Tree → Tree → Bool
  | .node direction id home children, .node direction' id' home' children' =>
      direction == direction' && id == id' && home == home' &&
        match children, children' with
        | .unknown, .unknown => true
        | .empty, .empty => true
        | .populated groups, .populated groups' => sameGroups groups groups'
        | _, _ => false

def sameGroups : List (String × List Tree) → List (String × List Tree) → Bool
  | [], [] => true
  | (classifier, nodes) :: rest, (classifier', nodes') :: rest' =>
      classifier == classifier' && sameLists nodes nodes' && sameGroups rest rest'
  | _, _ => false

def sameLists : List Tree → List Tree → Bool
  | [], [] => true
  | tree :: rest, tree' :: rest' => same tree tree' && sameLists rest rest'
  | _, _ => false

end

end Tree

end DatasetLineage
