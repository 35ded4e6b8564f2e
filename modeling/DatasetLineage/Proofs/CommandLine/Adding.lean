import DatasetLineage.CommandLine.Program
import DatasetLineage.Proofs.Document.SnapshotFile
import DatasetLineage.Proofs.Store.Reloading

/-!
# Adding documents to a store file

A run that adds documents reads the store file and the documents, and writes the store file at
its end.  So a run that fails has written nothing.  A run that goes through does what runs for
one document each do in a row: between them the store is written and reloaded, which changes
nothing but the set of its datasets, and no document is touched by that.
-/

namespace DatasetLineage

namespace CommandLine

/-! ## Asking for documents to be added -/

section Arguments

variable {path : String} {trees : List String} {direction : Direction} {depth : Option Nat}
  {allowUpdates : Bool}

/-- A command that adds documents is about one document at least. -/
theorem ne_nil_of_command? {reading : Reading}
    (hcommand : reading.command? = some (.add path trees direction depth allowUpdates)) :
    trees ≠ [] := by
  rw [Reading.command?] at hcommand
  obtain ⟨name, _, hcommand⟩ := Option.bind_eq_some_iff.1 hcommand
  cases name with
  | add =>
      obtain ⟨store, _, hcommand⟩ := Option.bind_eq_some_iff.1 hcommand
      obtain ⟨operands, hoperands, hcommand⟩ := Option.bind_eq_some_iff.1 hcommand
      cases hcommand
      rw [Reading.trees?] at hoperands
      split at hoperands
      · cases hoperands
      · next hnonempty =>
          cases hoperands
          simpa using hnonempty
  | _ => simp [Option.bind_eq_some_iff] at hcommand

theorem ne_nil_of_ofArguments {arguments : List String} {invocation : Invocation}
    (hinvocation : Invocation.ofArguments arguments = .ok invocation)
    (hcommand : invocation.command = .add path trees direction depth allowUpdates) :
    trees ≠ [] := by
  obtain ⟨reading, _, hfinish⟩ := bind_eq_ok.1 hinvocation
  rw [Reading.finish] at hfinish
  split at hfinish
  · next hfound =>
      cases hfinish
      exact ne_nil_of_command? (hfound.trans (congrArg some hcommand))
  · cases hfinish

end Arguments

/-! ## Parts of a run -/

section Parts

variable {α : Type} {session after : Session} {failure : Failure}

theorem require_eq_ok {result : Except Failure α} {value : α} :
    Running.require result session = .ok value after ↔ result = .ok value ∧ after = session := by
  cases result with
  | ok found =>
      change EStateM.Result.ok found session = _ ↔ _
      simp [eq_comm]
  | error reason =>
      change EStateM.Result.error reason session = _ ↔ _
      simp

theorem require_eq_error {result : Except Failure α} :
    Running.require result session = .error failure after ↔
      result = .error failure ∧ after = session := by
  cases result with
  | ok found =>
      change EStateM.Result.ok found session = _ ↔ _
      simp
  | error reason =>
      change EStateM.Result.error reason session = _ ↔ _
      simp [eq_comm]

theorem look_eq_ok {question : Workspace → Except Failure α} {value : α} :
    Running.look question session = .ok value after ↔
      question session.workspace = .ok value ∧ after = session :=
  require_eq_ok

theorem look_eq_error {question : Workspace → Except Failure α} :
    Running.look question session = .error failure after ↔
      question session.workspace = .error failure ∧ after = session :=
  require_eq_error

/-- A question changes nothing, whether it has an answer or not. -/
theorem keeps_look {property : Session → Prop} (question : Workspace → Except Failure α) :
    Keeps property (Running.look question) := by
  intro session hsession
  rw [leaves]
  split
  · next hresult => exact (look_eq_ok.1 hresult).2 ▸ hsession
  · next hresult => exact (look_eq_error.1 hresult).2 ▸ hsession

theorem change_eq_ok {step : Workspace → Except Failure Workspace} :
    Running.change step session = .ok () after ↔
      ∃ workspace, step session.workspace = .ok workspace ∧
        after = { session with workspace } := by
  rw [Running.change, action_bind_eq_ok]
  constructor
  · rintro ⟨workspace, middle, hlooked, hmodified⟩
    obtain ⟨hstep, rfl⟩ := look_eq_ok.1 hlooked
    cases hmodified
    exact ⟨workspace, hstep, rfl⟩
  · rintro ⟨workspace, hstep, rfl⟩
    exact ⟨workspace, session, look_eq_ok.2 ⟨hstep, rfl⟩, rfl⟩

theorem eq_of_change_error {step : Workspace → Except Failure Workspace}
    (hresult : Running.change step session = .error failure after) : after = session := by
  rw [Running.change, action_bind_eq_error] at hresult
  rcases hresult with hlooked | ⟨workspace, middle, _, hmodified⟩
  · exact (look_eq_error.1 hlooked).2
  · cases hmodified

def storedSnapshot (yaml : YamlReader) (path : String) (workspace : Workspace) :
    Except Failure Snapshot :=
  if workspace.contains path then workspace.loadSnapshot path yaml else .ok {}

theorem loadStored_eq (yaml : YamlReader) (path : String) (session : Session) :
    loadStored yaml path session =
      Running.require (storedSnapshot yaml path session.workspace) session := by
  change (if session.workspace.contains path = true then
    Running.look (·.loadSnapshot path yaml) else pure {} : Running Snapshot) session = _
  rw [storedSnapshot]
  split <;> rfl

theorem openStore_eq_ok {path : String} {snapshot : Snapshot} {store : MemoryStore} :
    openStore path snapshot session = .ok store after ↔
      MemoryStore.ofSnapshot snapshot = .ok store ∧ after = session := by
  rw [openStore, require_eq_ok, mapError_eq_ok]

end Parts

/-! ## Adding documents one after the other -/

def reportLine (path : String) (diff : Diff) : String :=
  s!"{path}: {diff.added} records added, {diff.updated} updated\n"

/-- Trees of documents are added to a store, with a line about each. -/
inductive Added (yaml : YamlReader) (settings : StoreSettings) (direction : Direction)
    (depth : Nat) (allowUpdates : Bool) (workspace : Workspace) :
    List String → MemoryStore → List String → MemoryStore → Prop
  | none {store : MemoryStore} :
      Added yaml settings direction depth allowUpdates workspace [] store [] store
  | next {path : String} {rest lines : List String} {tree : Tree} {diff : Diff}
      {store extended final : MemoryStore} :
      workspace.loadTree path direction yaml = .ok tree →
        Index.add settings tree depth allowUpdates store = .ok diff extended →
          Added yaml settings direction depth allowUpdates workspace rest extended lines final →
            Added yaml settings direction depth allowUpdates workspace (path :: rest) store
              (reportLine path diff :: lines) final

section Adding

variable {yaml : YamlReader} {settings : Settings} {direction : Direction} {depth : Nat}
  {allowUpdates : Bool} {trees lines : List String} {store final : MemoryStore}
  {session after : Session} {workspace : Workspace}

/-- Documents are added in a session that goes on as it is but for the lines printed. -/
theorem addDocuments_eq_ok :
    addDocuments yaml settings direction depth allowUpdates trees store session = .ok final after ↔
      ∃ lines, Added yaml settings.store direction depth allowUpdates session.workspace trees store
          lines final ∧
        after = { session with printed := lines.foldl (· ++ ·) session.printed } := by
  induction trees generalizing store session with
  | nil =>
      constructor
      · intro hresult
        cases hresult
        exact ⟨[], .none, rfl⟩
      · rintro ⟨lines, hadded, rfl⟩
        cases hadded
        rfl
  | cons path rest ih =>
      rw [addDocuments, action_bind_eq_ok]
      constructor
      · rintro ⟨tree, middle, hloaded, hrest⟩
        obtain ⟨hloaded, rfl⟩ := look_eq_ok.1 hloaded
        cases hadded : Index.add settings.store tree depth allowUpdates store with
        | error failure stopped =>
            rw [hadded] at hrest
            cases hrest
        | ok diff extended =>
            rw [hadded] at hrest
            obtain ⟨_, printed, hprinted, hothers⟩ := action_bind_eq_ok.1 hrest
            cases hprinted
            obtain ⟨lines, hlines, rfl⟩ := ih.1 hothers
            exact ⟨_, .next hloaded hadded hlines, rfl⟩
      · rintro ⟨lines, hadded, rfl⟩
        cases hadded with
        | @next _ _ lines tree diff _ extended _ hloaded hadded hlines =>
            refine ⟨tree, session, look_eq_ok.2 ⟨hloaded, rfl⟩, ?_⟩
            rw [hadded]
            refine action_bind_eq_ok.2 ⟨(), _, rfl, ?_⟩
            exact ih.2 ⟨lines, hlines, rfl⟩

/-- Nothing is written as long as documents are added. -/
theorem keeps_addDocuments (trees : List String) (store : MemoryStore) :
    Keeps (fun session : Session => session.workspace = workspace)
      (addDocuments yaml settings direction depth allowUpdates trees store) := by
  induction trees generalizing store with
  | nil => exact keeps_pure store
  | cons path rest ih =>
      rw [addDocuments]
      refine Keeps.bind (keeps_look _) fun tree => ?_
      cases Index.add settings.store tree depth allowUpdates store with
      | error failure stopped =>
          intro session hsession
          exact hsession
      | ok diff extended =>
          have hreport : Keeps (fun session : Session => session.workspace = workspace)
              (reportAdded path diff) := fun _ hsession => hsession
          exact Keeps.bind hreport fun _ => ih extended

theorem workspace_of_addDocuments_error {failure : Failure}
    (hresult : addDocuments yaml settings direction depth allowUpdates trees store session =
      .error failure after) : after.workspace = session.workspace := by
  have hkept :=
    @keeps_addDocuments yaml settings direction depth allowUpdates _ trees store session rfl
  rwa [leaves, hresult] at hkept

/-- A store that knows other datasets takes the same documents in the same way, unless datasets
have to be known. -/
theorem Added.withDatasets {settings : StoreSettings} {datasets : IdSet}
    (hadded : Added yaml settings direction depth allowUpdates workspace trees store lines final)
    (hreloadable : Index.Reloadable settings store)
    (hdatasets : Index.Interchangeable settings store datasets) :
    Added yaml settings direction depth allowUpdates workspace trees (store.withDatasets datasets)
      lines (final.withDatasets datasets) := by
  induction hadded with
  | none => exact .none
  | next hloaded hstep _ ih =>
      have hindexed := hreloadable.sound.indexed
      refine .next hloaded (Index.add_withDatasets hindexed hdatasets hstep) ?_
      apply ih (hreloadable.added hstep)
      intro hdemanded
      rw [Index.datasets_of_add hindexed hstep]
      exact hdatasets hdemanded

/-- Documents that can be loaded from another workspace in the same way are added from it. -/
theorem Added.in_workspace {settings : StoreSettings} {other : Workspace}
    (hadded : Added yaml settings direction depth allowUpdates workspace trees store lines final)
    (hloads : ∀ path ∈ trees, other.loadTree path direction yaml =
      workspace.loadTree path direction yaml) :
    Added yaml settings direction depth allowUpdates other trees store lines final := by
  induction hadded with
  | none => exact .none
  | next hloaded hstep _ ih =>
      obtain ⟨hfirst, hrest⟩ := List.forall_mem_cons.1 hloads
      exact .next (hfirst.trans hloaded) hstep (ih hrest)

/-- Documents that a store takes are taken after the store was written and reloaded, too. -/
theorem Added.reloaded {settings : StoreSettings} {written : Workspace} {path text : String}
    (hadded : Added yaml settings direction depth allowUpdates workspace trees store lines final)
    (hreloadable : Index.Reloadable settings store)
    (hwritten : workspace.write? path text = some written)
    (hapart : ∀ tree ∈ trees, workspace.locate? tree ≠ workspace.locate? path) :
    Added yaml settings direction depth allowUpdates written trees
      (store.withDatasets store.mentioned) lines (final.withDatasets store.mentioned) := by
  have hinterchangeable : Index.Interchangeable settings store store.mentioned :=
    fun hdemanded => (hreloadable.knows hdemanded).symm
  apply (hadded.withDatasets hreloadable hinterchangeable).in_workspace
  intro tree htree
  exact Workspace.loadTree_congr
    (Workspace.read?_of_write?_of_ne hwritten (hapart tree htree)) direction yaml

end Adding

/-! ## Whole runs -/

section Runs

variable {yaml : YamlReader} {settings : Settings} {path tree line : String}
  {trees rest lines : List String}
  {direction : Direction} {depth : Option Nat} {allowUpdates : Bool}
  {workspace written : Workspace} {session : Session}

/-- Documents are added to a store file, which is as good as empty if it is missing, with a line
about each of them. -/
def AddedToFile (yaml : YamlReader) (settings : Settings) (path : String) (direction : Direction)
    (depth : Option Nat) (allowUpdates : Bool) (workspace : Workspace)
    (trees lines : List String) (written : Workspace) : Prop :=
  ∃ snapshot store final, storedSnapshot yaml path workspace = .ok snapshot ∧
    MemoryStore.ofSnapshot snapshot = .ok store ∧
    Added yaml settings.store direction (depth.getD settings.merge.maxDepth)
      (allowUpdates || settings.merge.allowUpdates) workspace trees store lines final ∧
    workspace.writeDocument path final.snapshot.toJson = .ok written

theorem run_add_eq_ok :
    (Command.add path trees direction depth allowUpdates).run yaml settings { workspace } =
        .ok () session ↔
      ∃ lines, AddedToFile yaml settings path direction depth allowUpdates workspace trees lines
          session.workspace ∧
        session.printed = String.join lines := by
  rw [Command.run, action_bind_eq_ok]
  constructor
  · rintro ⟨snapshot, _, hload, hloading⟩
    rw [loadStored_eq, require_eq_ok] at hload
    obtain ⟨hloaded, rfl⟩ := hload
    obtain ⟨store, _, hopen, hopening⟩ := action_bind_eq_ok.1 hloading
    obtain ⟨hopened, rfl⟩ := openStore_eq_ok.1 hopen
    obtain ⟨final, _, hadd, hsave⟩ := action_bind_eq_ok.1 hopening
    obtain ⟨lines, hadded, rfl⟩ := addDocuments_eq_ok.1 hadd
    obtain ⟨written, hwritten, rfl⟩ := change_eq_ok.1 hsave
    exact ⟨lines, ⟨snapshot, store, final, hloaded, hopened, hadded, hwritten⟩, rfl⟩
  · rintro ⟨lines, ⟨snapshot, store, final, hloaded, hopened, hadded, hwritten⟩, hprinted⟩
    refine ⟨snapshot, { workspace }, ?_, action_bind_eq_ok.2 ⟨store, { workspace },
      openStore_eq_ok.2 ⟨hopened, rfl⟩, action_bind_eq_ok.2 ⟨final, _,
        addDocuments_eq_ok.2 ⟨lines, hadded, rfl⟩, change_eq_ok.2 ⟨_, hwritten, ?_⟩⟩⟩⟩
    · rw [loadStored_eq, require_eq_ok]
      exact ⟨hloaded, rfl⟩
    · cases session
      cases hprinted
      rfl

/-- A run that adds documents and fails leaves every file as it was. -/
theorem workspace_of_run_add_error {failure : Failure}
    (hresult : (Command.add path trees direction depth allowUpdates).run yaml settings
      { workspace } = .error failure session) : session.workspace = workspace := by
  rw [Command.run, action_bind_eq_error] at hresult
  rcases hresult with hload | ⟨snapshot, _, hload, hloading⟩
  · rw [loadStored_eq, require_eq_error] at hload
    rw [hload.2]
  rw [loadStored_eq, require_eq_ok] at hload
  obtain ⟨_, rfl⟩ := hload
  rcases action_bind_eq_error.1 hloading with hopen | ⟨store, _, hopen, hopening⟩
  · rw [(require_eq_error.1 hopen).2]
  obtain ⟨_, rfl⟩ := openStore_eq_ok.1 hopen
  rcases action_bind_eq_error.1 hopening with hadd | ⟨final, _, hadd, hsave⟩
  · exact workspace_of_addDocuments_error hadd
  · obtain ⟨lines, _, rfl⟩ := addDocuments_eq_ok.1 hadd
    rw [eq_of_change_error hsave]

/-- The first document can be added on its own, and the others to the file that this leaves. -/
theorem AddedToFile.split (hformat : Format.ofPath path = .json)
    (hapart : ∀ other ∈ rest, workspace.locate? other ≠ workspace.locate? path)
    (hadded : AddedToFile yaml settings path direction depth allowUpdates workspace (tree :: rest)
      lines written) :
    ∃ line others middle, lines = line :: others ∧
      AddedToFile yaml settings path direction depth allowUpdates workspace [tree] [line] middle ∧
      AddedToFile yaml settings path direction depth allowUpdates middle rest others written ∧
      ∀ other, middle.locate? other = workspace.locate? other := by
  obtain ⟨snapshot, store, final, hloaded, hopened, hadded, hwritten⟩ := hadded
  cases hadded with
  | @next _ _ others _ diff _ extended _ hdocument hstep hrest =>
      obtain ⟨location, hpath, _⟩ :=
        Workspace.write?_eq_some_iff.1 (Workspace.writeDocument_eq_ok_iff.1 hwritten)
      obtain ⟨middle, hmiddle, hreloaded⟩ :=
        hpath.loadSnapshot_of_writeDocument hformat extended.snapshot yaml
      have hsaved := Workspace.writeDocument_eq_ok_iff.1 hmiddle
      have hreloadable := (Index.reloadable_of_ofSnapshot hopened).added hstep
      refine ⟨reportLine tree diff, others, middle, rfl, ?_, ?_, Workspace.locate?_of_write? hsaved⟩
      · exact ⟨snapshot, store, extended, hloaded, hopened, .next hdocument hstep .none, hmiddle⟩
      · refine ⟨extended.snapshot, _, _, ?_, hreloadable.sound.ofSnapshot_snapshot,
          hrest.reloaded hreloadable hsaved hapart, ?_⟩
        · rw [storedSnapshot, if_pos (Workspace.contains_of_write? hsaved), hreloaded]
        · rw [Workspace.writeDocument_eq_ok_iff] at hwritten ⊢
          rw [Workspace.write?_of_write? hsaved]
          exact hwritten

/-! ## Runs one after the other -/

/-- Carry out commands one after the other, each in a session of its own, and keep what each of
them prints. -/
def runEach (yaml : YamlReader) (settings : Settings) :
    List Command → Workspace → Except Failure (List String × Workspace)
  | [], workspace => .ok ([], workspace)
  | command :: rest, workspace =>
      match command.run yaml settings { workspace } with
      | .error failure _ => .error failure
      | .ok _ session => do
          let (others, final) ← runEach yaml settings rest session.workspace
          pure (session.printed :: others, final)

theorem runEach_cons_of_ok {command : Command} {others : List Command}
    (hfirst : command.run yaml settings { workspace } = .ok () session)
    (hothers : runEach yaml settings others session.workspace = .ok (lines, written)) :
    runEach yaml settings (command :: others) workspace =
      .ok (session.printed :: lines, written) := by
  rw [runEach, hfirst]
  simp only [hothers]
  rfl

theorem AddedToFile.run_single
    (hadded : AddedToFile yaml settings path direction depth allowUpdates workspace [tree] [line]
      written) :
    (Command.add path [tree] direction depth allowUpdates).run yaml settings { workspace } =
      .ok () { workspace := written, printed := line } :=
  run_add_eq_ok.2 ⟨[line], hadded, by simp [String.join]⟩

/-- Documents that are added to a file together can be added to it one by one. -/
theorem AddedToFile.runEach_eq_ok (hformat : Format.ofPath path = .json)
    (hapart : ∀ other ∈ tree :: rest, workspace.locate? other ≠ workspace.locate? path)
    (hadded : AddedToFile yaml settings path direction depth allowUpdates workspace (tree :: rest)
      lines written) :
    runEach yaml settings
        ((tree :: rest).map fun tree => .add path [tree] direction depth allowUpdates) workspace =
      .ok (lines, written) := by
  induction rest generalizing tree workspace lines with
  | nil =>
      obtain ⟨snapshot, store, final, hloaded, hopened, hadded, hwritten⟩ := hadded
      cases hadded with
      | next hdocument hstep hnone =>
          cases hnone
          have hsingle : AddedToFile yaml settings path direction depth allowUpdates workspace
              [tree] _ written :=
            ⟨snapshot, store, _, hloaded, hopened, .next hdocument hstep .none, hwritten⟩
          exact runEach_cons_of_ok hsingle.run_single rfl
  | cons second rest ih =>
      obtain ⟨_, hothers⟩ := List.forall_mem_cons.1 hapart
      obtain ⟨line, others, middle, rfl, hfirst, hcontinued, hlocate⟩ :=
        hadded.split hformat hothers
      refine runEach_cons_of_ok hfirst.run_single (ih ?_ hcontinued)
      simpa only [hlocate] using hothers

/-- A batch of documents is added as a whole or not at all: if a run fails, be it at the last
document, it leaves every file as it was.  If it goes through, runs for one document each, in the
same order and with the store reloaded between them, go through as well, leave the same files and
print the same lines.  This is so whatever reads the documents in YAML.  The command line asks for
one document at least, as a run for none would still write the store. -/
theorem run_add_atomic_and_one_by_one (yaml : YamlReader) (settings : Settings) (path : String)
    (trees : List String) (direction : Direction) (depth : Option Nat) (allowUpdates : Bool)
    (workspace : Workspace) :
    (∀ failure session,
      (Command.add path trees direction depth allowUpdates).run yaml settings { workspace } =
        .error failure session → session.workspace = workspace) ∧
    (Format.ofPath path = .json → trees ≠ [] →
      (∀ tree ∈ trees, workspace.locate? tree ≠ workspace.locate? path) → ∀ session,
        (Command.add path trees direction depth allowUpdates).run yaml settings { workspace } =
          .ok () session →
        ∃ lines,
          runEach yaml settings
              (trees.map fun tree => .add path [tree] direction depth allowUpdates) workspace =
            .ok (lines, session.workspace) ∧
          session.printed = String.join lines) ∧
    ∀ arguments invocation, Invocation.ofArguments arguments = .ok invocation →
      invocation.command = .add path trees direction depth allowUpdates → trees ≠ [] := by
  refine ⟨fun _ _ => workspace_of_run_add_error, ?_, fun _ _ => ne_nil_of_ofArguments⟩
  intro hformat hnonempty hapart session hresult
  obtain ⟨lines, hadded, hprinted⟩ := run_add_eq_ok.1 hresult
  cases trees with
  | nil => exact absurd rfl hnonempty
  | cons tree rest => exact ⟨lines, hadded.runEach_eq_ok hformat hapart, hprinted⟩

/-- A workspace with the document of a chain, and a place for a store. -/
theorem exists_document_of_chain :
    ∃ workspace : Workspace, workspace.loadTree "tree" .sources = .ok (.chain 1) ∧
      workspace.LeadsToFile "store" ["store"] ∧ workspace.read? "store" = none ∧
      workspace.locate? "tree" ≠ workspace.locate? "store" := by
  obtain ⟨workspace, hwritten, hloaded⟩ := Workspace.leadsToFile_tree.loadTree_of_writeTree
    Workspace.ofPath_tree (Tree.ascending_chain 1) .sources .untagged
  have hsaved := Workspace.writeDocument_eq_ok_iff.1 hwritten
  have hlocate := Workspace.locate?_of_write? hsaved
  have hstore : Workspace.LeadsToFile {} "store" ["store"] :=
    (Workspace.plain_of_example (.inr rfl)).leadsToFile rfl
  have hapart : Workspace.locate? {} "store" ≠ Workspace.locate? {} "tree" := by
    rw [hstore.1, Workspace.leadsToFile_tree.1]
    decide
  refine ⟨workspace, ?_, ⟨?_, ?_⟩, ?_, ?_⟩
  · rw [hloaded, if_pos (by decide)]
    rfl
  · rw [hlocate, hstore.1]
  · rw [Workspace.hasFolder, Workspace.folders_of_write? hsaved]
    rfl
  · rw [Workspace.read?_of_write?_of_ne hsaved hapart, Workspace.read?, hstore.1]
    rfl
  · rw [hlocate, hlocate]
    exact hapart.symm

/-- A chain is added to an empty store, and adds nothing when it is added again. -/
theorem add_chain_twice :
    ∃ first second once twice, Index.add {} (.chain 1) 0 false {} = .ok first once ∧
      Index.add {} (.chain 1) 0 false once = .ok second twice ∧
      first.added = 1 ∧ first.updated = 0 ∧ second.added = 0 ∧ second.updated = 0 := by
  let once := leaves (Index.add {} (.chain 1) 0 false) {}
  have hfirst : ((Index.add {} (.chain 1) 0 false).run' {}) =
      some { relationsToAdd := [⟨"ard", .numbered 0, .numbered 1⟩] } := by
    decide +kernel
  have hsecond : ((Index.add {} (.chain 1) 0 false).run' once) = some {} := by
    decide +kernel
  exact ⟨_, _, once, _, eq_ok_of_run' hfirst, eq_ok_of_run' hsecond, rfl, rfl, rfl, rfl⟩

/-- A document that is added twice, and a batch that fails at its second document, which is not
there. -/
theorem run_add_atomic_and_one_by_one_of_chain :
    ∃ workspace session failure failed,
      (Command.add "store" ["tree", "tree"] .sources none false).run .untagged {} { workspace } =
        .ok () session ∧
      session.printed = "tree: 1 records added, 0 updated\ntree: 0 records added, 0 updated\n" ∧
      (∃ lines, runEach .untagged {} [.add "store" ["tree"] .sources none false,
          .add "store" ["tree"] .sources none false] workspace =
            .ok (lines, session.workspace) ∧
        session.printed = String.join lines) ∧
      (Command.add "store" ["tree", "store"] .sources none false).run .untagged {} { workspace } =
        .error failure failed ∧
      failed.workspace = workspace := by
  obtain ⟨workspace, hloaded, hstore, habsent, hapart⟩ := exists_document_of_chain
  obtain ⟨first, second, once, twice, hfirst, hsecond, hcounts⟩ := add_chain_twice
  obtain ⟨written, hwritten⟩ :=
    hstore.write?_succeeds ((Format.ofPath "store").render twice.snapshot.toJson true)
  have hmissing : storedSnapshot .untagged "store" workspace = .ok {} := by
    rw [storedSnapshot, Workspace.contains, habsent, hstore.1]
    simp [hstore.2]
  let lines := [reportLine "tree" first, reportLine "tree" second]
  have hadded : AddedToFile .untagged {} "store" .sources none false workspace ["tree", "tree"]
      lines written :=
    ⟨{}, {}, twice, hmissing, rfl, .next hloaded hfirst (.next hloaded hsecond .none),
      Workspace.writeDocument_eq_ok_iff.2 hwritten⟩
  have hrun : (Command.add "store" ["tree", "tree"] .sources none false).run .untagged {}
      { workspace } = .ok () { workspace := written, printed := String.join lines } :=
    run_add_eq_ok.2 ⟨lines, hadded, rfl⟩
  obtain ⟨-, hbatch, -⟩ := run_add_atomic_and_one_by_one .untagged {} "store" ["tree", "tree"]
    .sources none false workspace
  obtain ⟨hatomic, -, -⟩ := run_add_atomic_and_one_by_one .untagged {} "store" ["tree", "store"]
    .sources none false workspace
  cases hfails : (Command.add "store" ["tree", "store"] .sources none false).run .untagged {}
      { workspace } with
  | ok _ session =>
      obtain ⟨_, ⟨_, _, _, _, _, hboth, _⟩, _⟩ := run_add_eq_ok.1 hfails
      cases hboth with
      | next _ _ hrest =>
          cases hrest with
          | next hfound _ _ =>
              rw [Workspace.loadTree, Workspace.readValue, Workspace.readText, habsent] at hfound
              cases hfound
  | error failure failed =>
      refine ⟨workspace, _, failure, failed, hrun, ?_, ?_, hfails, hatomic _ _ hfails⟩
      · simp only [lines, reportLine, hcounts]
        rfl
      · exact hbatch (Workspace.plain_of_example (.inr rfl)).ofPath (by decide)
          (by simpa using hapart) _ hrun

end Runs

end CommandLine

end DatasetLineage
