import DatasetLineage.Document.Format

/-!
# Workspaces

The files a program works on: their texts, and the folders in which files can be
made.  A path is followed part by part.  Every part but the last has to lead to a
folder; an empty part and a single dot stay where they are, and two dots lead to the
folder around.
-/

namespace DatasetLineage

/-- The names on the way from the folder of a workspace to a file or a folder.  The
folders around it are named by dots, and a location that starts at the root has a
mark of its own in front. -/
abbrev Location := List String

namespace Location

def root : Location := ["/"]

/-- Whether a location is the folder of a workspace or a folder around it. -/
def isAround (location : Location) : Bool :=
  location.all (· = "..")

/-- The folder around a location.  The root has none but itself. -/
def parent (location : Location) : Location :=
  if location.isAround then location ++ [".."]
  else if location = root then root
  else location.dropLast

/-- Where a part of a path leads to from a folder. -/
def enter (folder : Location) (part : String) : Location :=
  if part = "" ∨ part = "." then folder
  else if part = ".." then folder.parent
  else folder ++ [part]

/-- The folder where a path starts, and its parts. -/
def split (path : String) : Location × List String :=
  let parts := path.splitOn "/"
  if path.startsWith "/" then (root, parts.tail) else ([], parts)

/-- What a path leads to if all the folders on its way exist. -/
def ofPath (path : String) : Location :=
  let (folder, parts) := split path
  parts.foldl enter folder

/-- The shortest path to a location. -/
def path (location : Location) : String :=
  match location with
  | "/" :: names => "/" ++ "/".intercalate names
  | names => "/".intercalate names

end Location

/-- Files with their texts, and folders. -/
structure Workspace where
  files : List (Location × String) := []
  folders : List Location := []
deriving Inhabited

namespace Workspace

/-- Most bytes of a name of a file or a folder. -/
def longestName : Nat := 255

/-- Most bytes of a path. -/
def longestPath : Nat := 4095

def isPath (text : String) : Bool :=
  text ≠ "" && !text.toList.contains '\x00' && text.utf8ByteSize ≤ longestPath &&
    (text.splitOn "/").all (·.utf8ByteSize ≤ longestName)

/-- Whether there is a folder at a location.  The folder of the workspace and those
around it always exist. -/
def hasFolder (workspace : Workspace) (location : Location) : Bool :=
  location.isAround || location = Location.root || location ∈ workspace.folders

/-- Follow the parts of a path, each from a folder that exists. -/
def follow? (workspace : Workspace) (location : Location) : List String → Option Location
  | [] => some location
  | part :: rest =>
      if workspace.hasFolder location then follow? workspace (location.enter part) rest
      else none

/-- The location that a path leads to, whether there is something or not. -/
def locate? (workspace : Workspace) (path : String) : Option Location :=
  if isPath path then
    let (folder, parts) := Location.split path
    workspace.follow? folder parts
  else none

def read? (workspace : Workspace) (path : String) : Option String := do
  workspace.files.lookup (← workspace.locate? path)

/-- Whether there is a file or a folder with a path. -/
def contains (workspace : Workspace) (path : String) : Bool :=
  (workspace.read? path).isSome || (workspace.locate? path).any workspace.hasFolder

def setFile (location : Location) (text : String) :
    List (Location × String) → List (Location × String)
  | [] => [(location, text)]
  | (other, old) :: rest =>
      if other = location then (location, text) :: rest
      else (other, old) :: setFile location text rest

/-- Write a file.  Its folder has to exist, and it must not be a folder itself. -/
def write? (workspace : Workspace) (path text : String) : Option Workspace := do
  let location ← workspace.locate? path
  if workspace.hasFolder location then none
  else some { workspace with files := setFile location text workspace.files }

/-- A workspace of files, with the folders that they are in. -/
def ofFiles (files : List (String × String)) : Workspace :=
  let located := files.map fun (path, text) => (Location.ofPath path, text)
  { files := located.foldl (fun others (location, text) => setFile location text others) []
    folders := located.flatMap fun (location, _) =>
      (List.range location.length).map location.take }

/-- The files that are new or changed since an earlier state, by their paths. -/
def changedSince (workspace earlier : Workspace) : List (String × String) :=
  workspace.files.filterMap fun (location, text) =>
    if earlier.files.lookup location = some text then none else some (location.path, text)

end Workspace

end DatasetLineage
