import DatasetLineage.CommandLine.Program

/-!
# The executable

Files and the environment are read, the program runs on them, and what it leaves
behind is printed and written.
-/

namespace DatasetLineage.CommandLine

/-- The variables of the environment that override settings. -/
def variableNames : List String :=
  ["DC_LINEAGE_MAX_DEPTH", "DC_LINEAGE_ALLOW_UPDATES", "DC_LINEAGE_REQUIRE_KNOWN_DATASETS",
    "DC_LINEAGE_OUTPUT_FORMAT"]

/-- What there is under a path. -/
inductive Found where
  | nothing
  | folder
  | file (text : String)

/-- Look for a file or a folder.  What is there but cannot be read as a text is taken
for a folder, so that nothing is written in its place. -/
def look (path : String) : IO Found := do
  try
    let text ← IO.FS.readFile path
    pure (.file text)
  catch
    | .noFileOrDirectory .. => pure .nothing
    | _ => pure .folder

/-- The paths on the way to a path, and the path itself. -/
def leading (path : String) : List String :=
  let parts := path.splitOn "/"
  ((List.range (parts.length + 1)).map fun count => "/".intercalate (parts.take count)).filter
    (· ≠ "")

def add (workspace : Workspace) (path : String) : IO Workspace := do
  let location := Location.ofPath path
  match ← look path with
  | .nothing => pure workspace
  | .folder => pure { workspace with folders := location :: workspace.folders }
  | .file text => pure { workspace with files := (location, text) :: workspace.files }

/-- Add what there is under a path and on the way to it to a workspace. -/
def gather (workspace : Workspace) (path : String) : IO Workspace :=
  (leading path).foldlM add workspace

def readEnvironment : IO Environment :=
  variableNames.filterMapM fun name => do
    return (← IO.getEnv name).map fun text => (name, text)

def writeBack (location : String × String) : IO Unit :=
  IO.FS.writeFile location.1 location.2

end DatasetLineage.CommandLine

open DatasetLineage CommandLine in
/-- Run the program. -/
def main (arguments : List String) : IO UInt32 := do
  let environment ← readEnvironment
  let paths := match Invocation.ofArguments arguments with
    | .ok invocation => invocation.paths
    | .error _ => []
  let workspace ← paths.foldlM gather {}
  let outcome := run arguments environment workspace
  (outcome.workspace.changedSince workspace).forM writeBack
  if let some text := outcome.printed then IO.print text
  if let some line := outcome.error then IO.eprintln line
  if outcome.code = 2 then IO.eprint usage
  return outcome.code.toUInt32
