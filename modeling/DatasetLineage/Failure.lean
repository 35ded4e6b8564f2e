import DatasetLineage.LineageError

/-!
# Failures

An operation fails for a cause: lineage contradicts itself, something could not
be read or written, or the operation refuses what it was asked.  On the way out
a failure collects what was being done, the outermost activity first.
-/

namespace DatasetLineage

/-- What could not be read or written. -/
inductive Medium where
  | json
  | yaml
  | file
  | integer
  | boolean
deriving DecidableEq, Inhabited

/-- Why an operation refuses what it was asked. -/
inductive Refusal where
  | unknownDirection (name : String)
  | unknownFormat (name : String)
  /-- Lineage mentions a dataset that the index does not hold. -/
  | unknownDataset (id : DatasetId)
  /-- The stored lineage was not exhausted within the permitted rounds. -/
  | tooManyRounds (limit : Nat)
  | relationPresent (edge : Edge)
  | relationAbsent (edge : Edge)
  | homePresent (id : DatasetId)
  | homeAbsent (id : DatasetId)
  | notInGraph (id : DatasetId)
  | cyclicOrder (id : DatasetId)
  /-- A single fetch round can never complete a check. -/
  | singleRound
deriving DecidableEq

/-- What was being done when a failure came up. -/
inductive Activity where
  | seedingStore
  | fetchingHomes
  | fetchingLineage
  | collectingStored
  | comparingStored
  | extendingStored
  | writingLineage
  | writingHomes
  | addingTree (root : DatasetId)
  | extractingTree (direction : Direction) (root : DatasetId)
  | readingDocument (path : String)
  | parsingJson (path : String)
  | parsingYaml (path : String)
  | readingTree (path : String)
  | readingSnapshot (path : String)
  | writingDocument (path : String)
  | readingSettings (path : String)
  | parsingSettings (path : String)
  | writingSettings (path : String)
  | overridingDepth
  | overridingUpdates
  | overridingKnown
  | checkingSnapshot (path : String)
  | openingStore (path : String)
  | mergingDocument (path : String)
  | addingDocument (path : String)
  | comparingSnapshots
deriving DecidableEq

/-- Why an operation failed, and what was being done. -/
inductive Failure where
  | lineage (error : LineageError)
  | unreadable (medium : Medium)
  | refused (refusal : Refusal)
  | during (activity : Activity) (failure : Failure)
deriving DecidableEq

namespace Refusal

def message : Refusal → String
  | .unknownDirection name => unknownDirectionMessage name
  | .unknownFormat name => s!"Unknown document format '{name}'"
  | .unknownDataset id => s!"Dataset {id} does not exist in the index"
  | .tooManyRounds limit =>
      s!"Stored lineage connected to these datasets exceeds {limit} fetch rounds " ++
        "(store.max_fetch_rounds); refusing to check against a partial graph"
  | .relationPresent edge =>
      s!"Relation {edge.source} -> {edge.derived} was added concurrently"
  | .relationAbsent edge => s!"Relation {edge.source} -> {edge.derived} does not exist"
  | .homePresent id => s!"Home for dataset {id} was added concurrently"
  | .homeAbsent id => s!"Dataset {id} has no home to update"
  | .notInGraph id => s!"Dataset {id} not found in lineage graph"
  | .cyclicOrder id => s!"Lineage graph is cyclic at {id}"
  | .singleRound => "store.max_fetch_rounds must be 0 (unlimited) or at least 2"

end Refusal

namespace Activity

def message : Activity → String
  | .seedingStore => "Snapshot holds inconsistent lineage"
  | .fetchingHomes => "Stored homes are inconsistent"
  | .fetchingLineage => "Stored lineage is inconsistent"
  | .collectingStored => "Stored lineage is inconsistent"
  | .comparingStored => "Lineage conflicts with the stored lineage"
  | .extendingStored => "Lineage would create a cycle in the stored lineage"
  | .writingLineage => "Failed to write lineage to the store"
  | .writingHomes => "Failed to write homes"
  | .addingTree root => s!"Invalid lineage tree rooted at {root}"
  | .extractingTree direction root => s!"Failed to extract {direction} tree for {root}"
  | .readingDocument path => "Failed to read document " ++ Text.quote path
  | .parsingJson path => "Failed to parse JSON document " ++ Text.quote path
  | .parsingYaml path => "Failed to parse YAML document " ++ Text.quote path
  | .readingTree path => "Invalid lineage in " ++ Text.quote path
  | .readingSnapshot path => "Invalid relations snapshot in " ++ Text.quote path
  | .writingDocument path => "Failed to write document " ++ Text.quote path
  | .readingSettings path => "Failed to read config file " ++ Text.quote path
  | .parsingSettings path => "Failed to parse config file " ++ Text.quote path
  | .writingSettings path => "Failed to write configuration file: " ++ Text.quote path
  | .overridingDepth => "DC_LINEAGE_MAX_DEPTH must be a non-negative integer"
  | .overridingUpdates => "DC_LINEAGE_ALLOW_UPDATES must be true or false"
  | .overridingKnown => "DC_LINEAGE_REQUIRE_KNOWN_DATASETS must be true or false"
  | .checkingSnapshot path =>
      "Snapshot " ++ Text.quote path ++ " holds inconsistent lineage"
  | .openingStore path => "Store file " ++ Text.quote path ++ " is not usable"
  | .mergingDocument path => "Failed to merge lineage from " ++ Text.quote path
  | .addingDocument path => "Failed to add lineage from " ++ Text.quote path
  | .comparingSnapshots => "Snapshots cannot be merged"

end Activity

namespace Failure

/-- What a failure says, the outermost activity first.  Why something could not
be read is not said. -/
def messages : Failure → List String
  | .lineage error => [error.message]
  | .unreadable _ => []
  | .refused refusal => [refusal.message]
  | .during activity failure => activity.message :: failure.messages

def message (failure : Failure) : String :=
  ": ".intercalate failure.messages

/-- The contradiction behind a failure, if that is its cause. -/
def lineageError? : Failure → Option LineageError
  | .lineage error => some error
  | .during _ failure => failure.lineageError?
  | _ => none

/-- A failure without what was being done. -/
def cause : Failure → Failure
  | .during _ failure => failure.cause
  | failure => failure

def contradiction (activity : Activity) (error : LineageError) : Failure :=
  .during activity (.lineage error)

end Failure

end DatasetLineage
