import DatasetLineage.Settings.Basic
import DatasetLineage.Yaml.Reader

/-!
# Readers of YAML

A YAML text is read as a value or as settings.  What is done with documents is defined
for every reader.  The reader at hand refuses texts with anchors, aliases, tags or
directives, which other readers take.

A settings file is a mapping with a section for every group of settings.  Every setting
has to be given, once; what is not a setting is passed over.
-/

namespace DatasetLineage

/-- What a YAML text stands for, as a value and as settings. -/
structure YamlReader where
  value? : String → Option Json
  settings? : String → Option Settings

namespace Settings

/-- The value of a field that is given exactly once. -/
def single? (fields : List (String × Yaml)) (name : String) : Option Yaml :=
  match fields.filter (·.1 = name) with
  | [(_, value)] => some value
  | _ => none

/-- What an unquoted scalar stands for, and its text. -/
def plain? : Yaml → Option (Yaml.Plain × String)
  | .scalar ⟨text, true⟩ => some (Yaml.Plain.ofText text, text)
  | _ => none

def flag? (value : Yaml) : Option Bool := do
  match ← plain? value with
  | (.bool flag, _) => some flag
  | _ => none

/-- A whole number in a settings file, written without a minus sign. -/
def word? (value : Yaml) : Option Nat := do
  match ← plain? value with
  | (.integer number, text) =>
      if text.startsWith "-" ∨ (Text.wordLimit : Int) ≤ number then none else some number.toNat
  | _ => none

def ofYaml? (document : Yaml) : Option Settings := do
  let sections ← document.fields?
  let merge ← (← single? sections "merge").fields?
  let store ← (← single? sections "store").fields?
  let output ← (← single? sections "output").fields?
  some
    { merge :=
        { maxDepth := ← word? (← single? merge "max_depth")
          allowUpdates := ← flag? (← single? merge "allow_updates") }
      store :=
        { requireKnownDatasets := ← flag? (← single? store "require_known_datasets")
          maxFetchRounds := ← word? (← single? store "max_fetch_rounds") }
      output :=
        { format := ← Format.ofName? (← (← single? output "format").scalarText?)
          pretty := ← flag? (← single? output "pretty") } }

end Settings

/-- The reader of texts without anchors, aliases, tags and directives. -/
def YamlReader.untagged : YamlReader where
  value? text := (Yaml.ofText? text).bind Yaml.toJson?
  settings? text := (Yaml.ofText? text).bind Settings.ofYaml?

end DatasetLineage
