import DatasetLineage.Document.File
import DatasetLineage.Settings.Basic

/-!
# Settings in documents

As a value of a document, settings are a record of records.  A settings file is the
YAML text of that value.
-/

namespace DatasetLineage

namespace Json

def bool? : Json → Option Bool
  | .bool value => some value
  | _ => none

/-- A whole number of up to 64 bits without a sign. -/
def word? : Json → Option Nat
  | .number (.integer value) =>
      if 0 ≤ value ∧ value < Text.wordLimit then some value.toNat else none
  | _ => none

/-- A format by its exact name, or as the only field of an object. -/
def format? : Json → Option Format
  | .text name => Format.ofName? name
  | .object [(name, .null)] => Format.ofName? name
  | _ => none

end Json

namespace MergeSettings

def fieldNames : List String := ["max_depth", "allow_updates"]

def toJson (settings : MergeSettings) : Json :=
  .object
    [("max_depth", .ofNat settings.maxDepth), ("allow_updates", .bool settings.allowUpdates)]

def ofJson? (value : Json) : Option MergeSettings := do
  match ← Json.record? fieldNames value with
  | [some depth, some allowed] => some ⟨← depth.word?, ← allowed.bool?⟩
  | _ => none

end MergeSettings

namespace StoreSettings

def fieldNames : List String := ["require_known_datasets", "max_fetch_rounds"]

def toJson (settings : StoreSettings) : Json :=
  .object
    [("require_known_datasets", .bool settings.requireKnownDatasets),
      ("max_fetch_rounds", .ofNat settings.maxFetchRounds)]

def ofJson? (value : Json) : Option StoreSettings := do
  match ← Json.record? fieldNames value with
  | [some required, some rounds] => some ⟨← required.bool?, ← rounds.word?⟩
  | _ => none

end StoreSettings

namespace OutputSettings

def fieldNames : List String := ["format", "pretty"]

def toJson (settings : OutputSettings) : Json :=
  .object
    [("format", .text settings.format.name), ("pretty", .bool settings.pretty)]

def ofJson? (value : Json) : Option OutputSettings := do
  match ← Json.record? fieldNames value with
  | [some format, some pretty] => some ⟨← format.format?, ← pretty.bool?⟩
  | _ => none

end OutputSettings

namespace Settings

def fieldNames : List String := ["merge", "store", "output"]

def toJson (settings : Settings) : Json :=
  .object
    [("merge", settings.merge.toJson), ("store", settings.store.toJson),
      ("output", settings.output.toJson)]

def ofJson? (value : Json) : Option Settings := do
  match ← Json.record? fieldNames value with
  | [some merge, some store, some output] =>
      some
        ⟨← MergeSettings.ofJson? merge, ← StoreSettings.ofJson? store,
          ← OutputSettings.ofJson? output⟩
  | _ => none

/-! ## Settings files -/

def text (settings : Settings) : String :=
  Yaml.render settings.toJson

def load (workspace : Workspace) (path : String) (yaml : YamlReader := .untagged) :
    Except Failure Settings := do
  let text ← workspace.readText .readingSettings path
  match yaml.settings? text with
  | some settings => pure settings
  | none => throw (.during (.parsingSettings path) (.unreadable .yaml))

end Settings

end DatasetLineage
