import DatasetLineage.Document.YamlReader
import DatasetLineage.Failure
import DatasetLineage.Json.Printer
import DatasetLineage.Json.Reader
import DatasetLineage.Yaml.Printer

/-!
# The text of documents

Values are written as text in either format and read from it.  The names of
formats and directions are read in any case.
-/

namespace DatasetLineage

namespace Format

/-- The text of a value.  Only JSON can be written on one line. -/
def render (format : Format) (value : Json) (pretty : Bool) : String :=
  match format, pretty with
  | .json, true => value.pretty
  | .json, false => value.compact
  | .yaml, _ => Yaml.render value

def read? (yaml : YamlReader) (format : Format) (text : String) : Option Json :=
  match format with
  | .json => Json.ofText? text
  | .yaml => yaml.value? text

/-- What cannot be read when a text is not in the format. -/
def medium : Format → Medium
  | .json => .json
  | .yaml => .yaml

def ofText (text : String) : Except Failure Format :=
  let lowered := Text.lowercase text
  match ofLowered? lowered with
  | some format => .ok format
  | none => .error (.refused (.unknownFormat lowered))

end Format

def Direction.ofText (text : String) : Except Failure Direction :=
  let lowered := Text.lowercase text
  match Direction.ofLowered? lowered with
  | some direction => .ok direction
  | none => .error (.refused (.unknownDirection lowered))

end DatasetLineage
