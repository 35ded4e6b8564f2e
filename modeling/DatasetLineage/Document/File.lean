import DatasetLineage.Document.Content
import DatasetLineage.Document.Ingest
import DatasetLineage.Document.Record
import DatasetLineage.Document.Workspace

/-!
# Document files

Documents are read from files and written to files in the format that the name of
the file tells.  The reader of YAML is a parameter of all that reads documents.
-/

namespace DatasetLineage

namespace Format

/-- What is being done when the text of a file is read as a value. -/
def parsing (path : String) : Format → Activity
  | .json => .parsingJson path
  | .yaml => .parsingYaml path

end Format

namespace Workspace

/-- The text of a file; `activity` is what it is read for. -/
def readText (workspace : Workspace) (activity : String → Activity) (path : String) :
    Except Failure String :=
  match workspace.read? path with
  | some text => .ok text
  | none => .error (.during (activity path) (.unreadable .file))

def readValue (workspace : Workspace) (path : String) (yaml : YamlReader := .untagged) :
    Except Failure Json := do
  let text ← workspace.readText .readingDocument path
  let format := Format.ofPath path
  match format.read? yaml text with
  | some value => pure value
  | none => throw (.during (format.parsing path) (.unreadable format.medium))

/-- The tree of a document, be it a tree document or an ingest document. -/
def loadTree (workspace : Workspace) (path : String) (default : Direction)
    (yaml : YamlReader := .untagged) : Except Failure Tree := do
  let value ← workspace.readValue path yaml
  let tree :=
    if Tree.isIngest value then Tree.ofIngest value none else Tree.ofDocument value default
  tree.mapError (Failure.contradiction (.readingTree path))

def loadSnapshot (workspace : Workspace) (path : String)
    (yaml : YamlReader := .untagged) : Except Failure Snapshot := do
  let value ← workspace.readValue path yaml
  match Snapshot.ofJson? value with
  | some snapshot => pure snapshot
  | none => throw (.during (.readingSnapshot path) (.unreadable .json))

/-- Write a value to a document, over several lines. -/
def writeDocument (workspace : Workspace) (path : String) (value : Json) :
    Except Failure Workspace :=
  match workspace.write? path ((Format.ofPath path).render value true) with
  | some written => .ok written
  | none => .error (.during (.writingDocument path) (.unreadable .file))

def writeTree (workspace : Workspace) (path : String) (tree : Tree) :
    Except Failure Workspace :=
  workspace.writeDocument path tree.toDocument

end Workspace

end DatasetLineage
