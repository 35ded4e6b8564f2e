import DatasetLineage.Json.Printer
import DatasetLineage.Text.Lowercase
import DatasetLineage.Tree.Basic

/-!
# Tree documents

A node of a tree is an object with its `dataset_id`, perhaps its `home`, and its
children under the key that names their direction: an object with a list of nodes
for every classifier.  Without that key, or with null under it, the node is
unexplored.  A node without the key takes the direction of its parent, and the
root takes the one it names under `direction` or else the one that was asked for.
-/

namespace DatasetLineage

namespace Tree

def malformed {α : Type} (fault : DocumentFault) : Except LineageError α :=
  .error (.malformedDocument fault)

def readId : Option Json → Except LineageError DatasetId
  | some (.text written) =>
      match DatasetId.ofText? written with
      | some id => .ok id
      | none => malformed (.invalidId written)
  | _ => malformed .missingId

def readHome (id : DatasetId) : Option Json → Except LineageError (Option String)
  | none | some .null => .ok none
  | some (.text home) => .ok (some home)
  | some found => malformed (.homeNotText id found.compact)

/-- The direction of a node: that of the key its children stand under, or the
inherited one if there is no such key. -/
def readDirection (id : DatasetId) (inherited : Direction)
    (fields : List (String × Json)) : Except LineageError Direction :=
  match fields.lookup Direction.sources.name, fields.lookup Direction.derived.name with
  | some _, some _ => malformed (.bothDirections id)
  | some _, none => .ok .sources
  | none, some _ => .ok .derived
  | none, none => .ok inherited

mutual

def ofNode (inherited : Direction) : Json → Except LineageError Tree
  | .object fields => do
      let id ← readId (fields.lookup "dataset_id")
      let home ← readHome id (fields.lookup "home")
      let direction ← readDirection id inherited fields
      let children ← childrenOf id direction fields
      pure (.node direction id home children)
  | found => malformed (.nodeNotObject found.compact)

/-- The children that the fields of a node give in a direction. -/
def childrenOf (id : DatasetId) (direction : Direction) :
    List (String × Json) → Except LineageError (Children Tree)
  | [] => .ok .unknown
  | (name, value) :: rest =>
      if name = direction.name then childrenIn id direction value
      else childrenOf id direction rest

def childrenIn (id : DatasetId) (direction : Direction) :
    Json → Except LineageError (Children Tree)
  | .null => .ok .unknown
  | .object groups => do
      pure (.ofGroups (← groupsOf id direction groups))
  | found => malformed (.childrenNotObject id found.compact)

def groupsOf (id : DatasetId) (direction : Direction) :
    List (String × Json) → Except LineageError (List (String × List Tree))
  | [] => .ok []
  | (classifier, .array nodes) :: rest => do
      let trees ← nodesOf direction nodes
      let others ← groupsOf id direction rest
      pure ((classifier, trees) :: others)
  | (classifier, _) :: _ => malformed (.childrenNotList id classifier)

def nodesOf (direction : Direction) : List Json → Except LineageError (List Tree)
  | [] => .ok []
  | value :: rest => do
      let tree ← ofNode direction value
      let others ← nodesOf direction rest
      pure (tree :: others)

end

def declaredDirection? : Option Json → Except LineageError (Option Direction)
  | none | some .null => .ok none
  | some (.text written) =>
      let lowered := Text.lowercase written
      match Direction.ofLowered? lowered with
      | some direction => .ok (some direction)
      | none => malformed (.unknownDirection lowered)
  | some found => malformed (.directionNotText found.compact)

/-- The tree of a document.  The direction that the root names, if it does, is
that of its children. -/
def ofDocument (value : Json) (default : Direction) : Except LineageError Tree := do
  let declared ← declaredDirection? (value.field? "direction")
  let tree ← ofNode (declared.getD default) value
  match declared with
  | none => pure tree
  | some direction =>
      if tree.direction = direction then pure tree
      else malformed (.directionMismatch direction tree.direction)

mutual

/-- The fields of a node in ascending order of their names; the `extra` ones come
before its home and its sources. -/
def nodeFields (extra : List (String × Json)) : Tree → List (String × Json)
  | .node direction id home children =>
      let homeField := (home.map fun text => ("home", Json.text text)).toList
      let childField := childrenFields direction children
      ("dataset_id", .text (toString id)) ::
        match direction with
        | .sources => extra ++ homeField ++ childField
        | .derived => childField ++ extra ++ homeField

/-- The field of the children of a node, unless it is unexplored. -/
def childrenFields (direction : Direction) : Children Tree → List (String × Json)
  | .unknown => []
  | .empty => [(direction.name, .object [])]
  | .populated groups => [(direction.name, .object (groupFields groups))]

def groupFields : List (String × List Tree) → List (String × Json)
  | [] => []
  | (classifier, nodes) :: rest => (classifier, .array (nodeValues nodes)) :: groupFields rest

def nodeValues : List Tree → List Json
  | [] => []
  | tree :: rest => .object (nodeFields [] tree) :: nodeValues rest

end

/-- The document of a tree; its root names its direction. -/
def toDocument (tree : Tree) : Json :=
  .object (nodeFields [("direction", .text tree.direction.name)] tree)

end Tree

end DatasetLineage
