import DatasetLineage.CommandLine.Arguments
import DatasetLineage.Graph.Drawing
import DatasetLineage.Settings.Document
import DatasetLineage.Settings.Environment
import DatasetLineage.Store.Index
import DatasetLineage.Text.Blank

/-!
# The program

Every command reads documents from a workspace, and prints its result or writes it
to a file.  A command that fails leaves what it has printed until then, and no file
is written but at the end.  Documents and settings in YAML are read by a reader that
the program is given.
-/

namespace DatasetLineage

namespace CommandLine

/-- The workspace of a run, and what was printed so far. -/
structure Session where
  workspace : Workspace
  printed : String := ""
deriving Inhabited

abbrev Running := EStateM Failure Session

namespace Running

def require {α : Type} (result : Except Failure α) : Running α :=
  MonadExcept.ofExcept result

def look {α : Type} (question : Workspace → Except Failure α) : Running α := do
  require (question (← get).workspace)

def change (step : Workspace → Except Failure Workspace) : Running Unit := do
  let workspace ← look step
  modify fun session => { session with workspace }

def print (text : String) : Running Unit :=
  modify fun session => { session with printed := session.printed ++ text }

end Running

open Running

variable (yaml : YamlReader)

def loadCollection (path : String) : Running Collection := do
  let snapshot ← look (·.loadSnapshot path yaml)
  require <| (Collection.ofSnapshot snapshot).mapError
    (Failure.contradiction (.checkingSnapshot path))

def openStore (path : String) (snapshot : Snapshot) : Running MemoryStore :=
  require <| (MemoryStore.ofSnapshot snapshot).mapError (Failure.during (.openingStore path))

def emit (settings : OutputSettings) (value : Json) : Option String → Running Unit
  | some path => change (·.writeDocument path value)
  | none => print (Text.trimmedEnd (settings.format.render value settings.pretty) ++ "\n")

def mergeDocuments (direction : Direction) (depth : Nat) :
    List String → Collection → Running Collection
  | [], collection => pure collection
  | path :: rest, collection => do
      let tree ← look (·.loadTree path direction yaml)
      let merged ← require <|
        (collection.afterMerging (Collection.mergeTree tree depth)).mapError
          (Failure.contradiction (.mergingDocument path))
      mergeDocuments direction depth rest merged

/-- Print how many records the tree of a document added and updated. -/
def reportAdded (path : String) (diff : Diff) : Running Unit :=
  print s!"{path}: {diff.added} records added, {diff.updated} updated\n"

def addDocuments (settings : Settings) (direction : Direction) (depth : Nat)
    (allowUpdates : Bool) : List String → MemoryStore → Running MemoryStore
  | [], store => pure store
  | path :: rest, store => do
      let tree ← look (·.loadTree path direction yaml)
      match Index.add settings.store tree depth allowUpdates store with
      | .error failure _ => throw (.during (.addingDocument path) failure)
      | .ok diff extended =>
          reportAdded path diff
          addDocuments settings direction depth allowUpdates rest extended

/-- The snapshot of a store file, which may be missing. -/
def loadStored (path : String) : Running Snapshot := do
  if (← get).workspace.contains path then look (·.loadSnapshot path yaml) else pure {}

def saveStore (path : String) (store : MemoryStore) : Running Unit :=
  change (·.writeDocument path store.snapshot.toJson)

/-- Write the default settings to a file unless it is there already. -/
def initialize? (path : String) (force : Bool) : Running Unit := do
  if (← get).workspace.contains path && !force then
    print "Configuration file already exists; pass --force to overwrite it.\n"
  else do
    change fun workspace =>
      match workspace.write? path (Settings.text {}) with
      | some written => .ok written
      | none => .error (.during (.writingSettings path) (.unreadable .file))
    print ("Configuration file created: " ++ Text.quote path ++ "\n")

def Command.run (settings : Settings) : Command → Running Unit
  | .merge trees direction depth output => do
      let depth := depth.getD settings.merge.maxDepth
      let collection ← mergeDocuments yaml direction depth trees Collection.empty
      emit settings.output collection.toSnapshot.toJson output
  | .extract snapshot root direction depth output => do
      let collection ← loadCollection yaml snapshot
      let depth := depth.getD settings.merge.maxDepth
      let tree ← require <| (collection.extractTreeToDepth root direction depth).mapError
        (Failure.contradiction (.extractingTree direction root))
      emit settings.output tree.toDocument output
  | .diff snapshot existing allowUpdates => do
      let collection ← loadCollection yaml snapshot
      let existing ← existing.mapM (loadCollection yaml)
      let allowUpdates := allowUpdates || settings.merge.allowUpdates
      let diff ← require <| (collection.diffAgainst existing allowUpdates).mapError
        (Failure.contradiction .comparingSnapshots)
      emit settings.output diff.toJson none
  | .add path trees direction depth allowUpdates => do
      let store ← openStore path (← loadStored yaml path)
      let depth := depth.getD settings.merge.maxDepth
      let allowUpdates := allowUpdates || settings.merge.allowUpdates
      let extended ← addDocuments yaml settings direction depth allowUpdates trees store
      saveStore path extended
  | .remove path root direction depth => do
      let store ← openStore path (← look (·.loadSnapshot path yaml))
      match Index.remove root direction depth store with
      | .error failure _ => throw failure
      | .ok removed remaining =>
          print s!"{path}: {removed} relations removed\n"
          saveStore path remaining
  | .graph snapshot drawing => do
      let graph := Graph.ofCollection (← loadCollection yaml snapshot)
      if drawing then print graph.drawing
      else emit settings.output graph.statistics.toJson none
  | .init path force => initialize? path force

/-- The settings of a run: those of the file that is named, if it is there,
overridden by the environment. -/
def loadSettings (environment : Environment) (path : Option String) : Running Settings := do
  let workspace := (← get).workspace
  let settings ← require <|
    match path with
    | none => .ok {}
    | some path => if workspace.contains path then Settings.load workspace path yaml else .ok {}
  match Settings.applyEnvironment environment settings with
  | .error failure _ => throw failure
  | .ok _ settings => do
      require settings.validate
      pure settings

def Invocation.run (invocation : Invocation) (environment : Environment) :
    Running Unit := do
  let settings ← loadSettings yaml environment invocation.settingsPath
  let output :=
    { settings.output with format := invocation.format.getD settings.output.format }
  invocation.command.run yaml { settings with output }

/-- What a run leaves behind. -/
structure Outcome where
  code : Nat
  /-- What was printed; nothing is said of arguments that are not carried out. -/
  printed : Option String
  /-- The first line about a failure. -/
  error : Option String
  workspace : Workspace

/-- The first line of a text.  A carriage return before its end belongs to the end. -/
def firstLine (text : String) : String :=
  let line := text.toList.takeWhile (· ≠ '\n')
  String.ofList (if line.getLast? = some '\r' then line.dropLast else line)

/-- The first line about a failure: what was being done first. -/
def errorLine (failure : Failure) : String :=
  firstLine ("Error: " ++ failure.messages.head?.getD "")

def versionLine : String := "dc-lineage 0.1.0\n"

def usage : String :=
  "Usage: dc-lineage [-l LEVEL] [-c FILE] [--format json|yaml] COMMAND\n" ++
    "Commands: merge, extract, diff, add, remove, graph, init\n"

def run (arguments : List String) (environment : Environment) (workspace : Workspace)
    (yaml : YamlReader := .untagged) : Outcome :=
  match Invocation.ofArguments arguments with
  | .error .misuse => ⟨2, none, none, workspace⟩
  | .error .help => ⟨0, some usage, none, workspace⟩
  | .error .version => ⟨0, some versionLine, none, workspace⟩
  | .ok invocation =>
      match invocation.run yaml environment { workspace } with
      | .ok _ session => ⟨0, some session.printed, none, session.workspace⟩
      | .error failure session =>
          ⟨1, some session.printed, some (errorLine failure), session.workspace⟩

end CommandLine

end DatasetLineage
