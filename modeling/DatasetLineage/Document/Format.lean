import DatasetLineage.Text.Lowercase

/-!
# Document formats

Documents are JSON or YAML.  A format is named by a text or by the extension of
a file name, in any case.
-/

namespace DatasetLineage

/-- The format of a document. -/
inductive Format where
  | json
  | yaml
deriving DecidableEq, Inhabited

namespace Format

def name : Format → String
  | .json => "json"
  | .yaml => "yaml"

instance : ToString Format := ⟨name⟩

/-- The format whose name is exactly the given text. -/
def ofName? : String → Option Format
  | "json" => some .json
  | "yaml" => some .yaml
  | _ => none

def ofLowered? : String → Option Format
  | "json" => some .json
  | "yaml" => some .yaml
  | "yml" => some .yaml
  | _ => none

end Format

/-- The parts of a path that name something: empty parts and single dots do not. -/
def pathParts (path : String) : List String :=
  (path.splitOn "/").filter fun part => part ≠ "" ∧ part ≠ "."

/-- The last part of a path, unless it leads upwards. -/
def fileName? (path : String) : Option String :=
  match (pathParts path).getLast? with
  | some ".." => none
  | name => name

/-- The text after the last dot of a file name.  A dot at the very start does not
begin an extension. -/
def extensionOf? (name : String) : Option String :=
  let parts := name.splitOn "."
  match parts.getLast? with
  | some extension =>
      if parts.length = 1 ∨ parts.dropLast = [""] then none else some extension
  | none => none

/-- The format a file is written in: YAML for the extensions `yaml` and `yml`, and
JSON for everything else. -/
def Format.ofPath (path : String) : Format :=
  let named := do
    let name ← fileName? path
    let extension ← extensionOf? name
    Format.ofLowered? (Text.lowercase extension)
  named.getD .json

end DatasetLineage
