import DatasetLineage.Collection.Acyclic

/-!
# Merging lineage

Homes, relations, trees and whole collections are merged record by record.  A
merge fails at the first record that contradicts what is already there: another
home for a dataset, another classifier for an edge, an edge that closes a cycle,
or another detailed subtree for an edge.

A merge that fails stops where it is, and the records merged before stay.  A
caller that wants all or nothing keeps the collection it started from.
-/

namespace DatasetLineage

/-- How many levels of edges below a root are followed; `none` follows them all. -/
abbrev Levels := Option Nat

namespace Levels

/-- The levels named by a bound, where zero is no bound. -/
def ofBound (bound : Nat) : Levels :=
  if bound = 0 then none else some bound

/-- The levels left one step further down. -/
def next (levels : Levels) : Levels :=
  levels.map (· - 1)

end Levels

/-- A change of a collection that can stop half-way. -/
abbrev Merging := EStateM LineageError Collection

def Merging.check (result : Collection → Except LineageError Unit) : Merging Unit :=
  fun collection =>
    match result collection with
    | .ok _ => .ok () collection
    | .error error => .error error collection

namespace Collection

def mergeHome (id : DatasetId) (home : String) : Merging Unit := fun collection =>
  match collection.homes.get? id with
  | some existing =>
      if existing = home then .ok () collection
      else .error (.inconsistentHome id existing home) collection
  | none => .ok () { collection with homes := collection.homes.insert id home }

def mergeHome? (id : DatasetId) : Option String → Merging Unit
  | some home => mergeHome id home
  | none => pure ()

/-- Note that a dataset is mentioned. -/
def addKnown (id : DatasetId) : Merging Unit := fun collection =>
  .ok () { collection with known := IdSet.add collection.known id }

/-- Put a neighbour at the end of the list of a dataset. -/
def pushNeighbour (index : OrderedMap DatasetId (List Neighbour)) (id : DatasetId)
    (neighbour : Neighbour) : OrderedMap DatasetId (List Neighbour) :=
  index.insert id (neighboursIn index id ++ [neighbour])

/-- Enter a new relation into the list and into every index. -/
def insertRelation (collection : Collection) (relation : Relation) : Collection :=
  let ⟨classifier, source, derived⟩ := relation
  { collection with
    relations := collection.relations ++ [relation]
    classifiers := collection.classifiers.insert relation.edge classifier
    bySource := pushNeighbour collection.bySource source ⟨derived, classifier⟩
    byDerived := pushNeighbour collection.byDerived derived ⟨source, classifier⟩
    known := IdSet.add (IdSet.add collection.known source) derived }

/-- Merge one relation.  Only an edge whose two ends were both known before can
close a cycle, so only then the lineage on either side of it is walked. -/
def mergeRelation (relation : Relation) : Merging Unit := fun collection =>
  if relation.source = relation.derived then
    .error (.cyclicGraph relation.source) collection
  else
    match collection.classifiers.get? relation.edge with
    | some existing =>
        if existing = relation.classifier then .ok () collection
        else
          .error (.inconsistentClassifier relation.edge existing relation.classifier)
            collection
    | none =>
        let extended := collection.insertRelation relation
        if collection.contains relation.source && collection.contains relation.derived then
          (do
            Merging.check (·.ensureAcyclic .sources relation.derived)
            Merging.check (·.ensureAcyclic .derived relation.source)) extended
        else .ok () extended

/-- Register the subtree supplied for an edge.  A subtree without detail is never
registered, and one that repeats the registered subtree changes nothing. -/
def mergeDetail (edge : Edge) (tree : Tree) : Merging Unit := fun collection =>
  if tree.children.hasDetail then
    match collection.details.get? edge with
    | some existing =>
        if existing.same tree then .ok () collection
        else .error (.duplicateDetail edge) collection
    | none => .ok () { collection with details := collection.details.insert edge tree }
  else .ok () collection

mutual

/-- Merge a tree down to some levels of edges: the home and id of its root, then
child by child the relation, its detail, and what lies below. -/
def mergeLevels (levels : Levels) : Tree → Merging Unit
  | .node direction id home (.populated groups) => do
      mergeHome? id home
      addKnown id
      mergeGroups levels direction id groups
  | .node direction id home _ => do
      mergeHome? id home
      addKnown id
      Merging.check (·.ensureAcyclic direction.opposite id)

def mergeGroups (levels : Levels) (direction : Direction) (parent : DatasetId) :
    List (String × List Tree) → Merging Unit
  | [] => pure ()
  | (classifier, nodes) :: rest => do
      mergeNodes levels direction parent classifier nodes
      mergeGroups levels direction parent rest

def mergeNodes (levels : Levels) (direction : Direction) (parent : DatasetId)
    (classifier : String) : List Tree → Merging Unit
  | [] => pure ()
  | child :: rest => do
      if child.direction ≠ direction then
        throw (.mixedDirection child.id direction child.direction)
      let edge := direction.edge parent child.id
      mergeRelation ⟨classifier, edge.source, edge.derived⟩
      mergeDetail edge child
      if levels ≠ some 1 then mergeLevels levels.next child
      mergeNodes levels direction parent classifier rest

end

/-- Merge a tree down to `bound` levels of edges, all of them if `bound` is zero.
A tree that contains one of its nodes again is refused before anything is merged. -/
def mergeTree (tree : Tree) (bound : Nat) : Merging Unit := do
  Merging.check fun _ => discard tree.childDatasets
  mergeLevels (.ofBound bound) tree

/-- Merge another collection: its homes, relations and registered subtrees. -/
def merge (other : Collection) : Merging Unit := do
  other.homes.entries.forM fun (id, home) => mergeHome id home
  other.relations.forM mergeRelation
  other.details.entries.forM fun (edge, tree) => mergeDetail edge tree
  modify fun collection =>
    { collection with known := collection.known.override other.known }

/-- The collection a change leads to, or why it stopped. -/
def afterMerging (collection : Collection) (change : Merging Unit) :
    Except LineageError Collection :=
  match change collection with
  | .ok _ merged => .ok merged
  | .error error _ => .error error

def ofTree (tree : Tree) (bound : Nat) : Except LineageError Collection :=
  empty.afterMerging (mergeTree tree bound)

/-- A copy of a collection, if one is given, with a tree merged into it, if one is
given. -/
def ofCopyAndTree (copy : Option Collection) (tree : Option Tree) (bound : Nat) :
    Except LineageError Collection :=
  empty.afterMerging do
    copy.forM merge
    tree.forM (mergeTree · bound)

def ofSnapshot (snapshot : Snapshot) : Except LineageError Collection :=
  empty.afterMerging do
    snapshot.homes.entries.forM fun (id, home) => mergeHome id home
    snapshot.relations.forM mergeRelation

end Collection

end DatasetLineage
