import DatasetLineage.Document.Content
import DatasetLineage.Settings.Basic
import DatasetLineage.Text.Digit

/-!
# Settings from the environment

Variables of the environment override settings, one after the other; the first one
that cannot be read stops the rest, and what was overridden before stays.  At the
end settings are checked for values with which nothing could be stored.
-/

namespace DatasetLineage

abbrev Environment := List (String × String)

namespace Settings

abbrev Overriding := EStateM Failure Settings

def override (environment : Environment) (name : String)
    (change : String → Settings → Except Failure Settings) : Overriding Unit :=
  fun settings =>
    match environment.lookup name with
    | none => .ok () settings
    | some text =>
        match change text settings with
        | .ok changed => .ok () changed
        | .error failure => .error failure settings

def readDepth (text : String) : Except Failure Nat :=
  match Text.wordOfText? text with
  | some depth => .ok depth
  | none => .error (.during .overridingDepth (.unreadable .integer))

def readFlag (activity : Activity) (text : String) : Except Failure Bool :=
  match text with
  | "true" => .ok true
  | "false" => .ok false
  | _ => .error (.during activity (.unreadable .boolean))

/-- Override settings by the variables of an environment. -/
def applyEnvironment (environment : Environment) : Overriding Unit := do
  override environment "DC_LINEAGE_MAX_DEPTH" fun text settings => do
    let depth ← readDepth text
    pure { settings with merge := { settings.merge with maxDepth := depth } }
  override environment "DC_LINEAGE_ALLOW_UPDATES" fun text settings => do
    let allowed ← readFlag .overridingUpdates text
    pure { settings with merge := { settings.merge with allowUpdates := allowed } }
  override environment "DC_LINEAGE_REQUIRE_KNOWN_DATASETS" fun text settings => do
    let required ← readFlag .overridingKnown text
    pure { settings with store := { settings.store with requireKnownDatasets := required } }
  override environment "DC_LINEAGE_OUTPUT_FORMAT" fun text settings => do
    let format ← Format.ofText text
    pure { settings with output := { settings.output with format := format } }

def ofEnvironment (environment : Environment) : Except Failure Settings :=
  match applyEnvironment environment {} with
  | .ok _ settings => .ok settings
  | .error failure _ => .error failure

/-- Refuse settings with which nothing could be stored: a single round of fetching
never shows that nothing is left to fetch. -/
def validate (settings : Settings) : Except Failure Unit :=
  if settings.store.maxFetchRounds = 1 then .error (.refused .singleRound) else .ok ()

end Settings

end DatasetLineage
