import DatasetLineage.Graph.Basic

/-!
# Drawing a graph

The text of a graph for a drawing program: a line for every dataset, numbered in
ascending order of the ids, and a line for every relation with its classifier.
-/

namespace DatasetLineage

namespace Graph

/-- How a character is written in a label: a newline starts a new line of the
label, aligned to the left. -/
def labelChar : Char → String
  | '"' => "\\\""
  | '\\' => "\\\\"
  | '\n' => "\\l"
  | c => c.toString

def labelled (text : String) : String :=
  "[ label = \"" ++ String.join (text.toList.map labelChar) ++ "\" ]"

def nodeLine (entry : DatasetId × Nat) : String :=
  s!"    {entry.2} " ++ labelled (toString entry.1) ++ "\n"

def edgeLine (graph : Graph) (relation : Relation) : String :=
  let source := graph.nodes.idxOf relation.source
  let derived := graph.nodes.idxOf relation.derived
  s!"    {source} -> {derived} " ++ labelled relation.classifier ++ "\n"

def drawing (graph : Graph) : String :=
  "digraph lineage \x7b\n" ++ String.join (graph.nodes.zipIdx.map nodeLine) ++
    String.join (graph.edges.map graph.edgeLine) ++ "\x7d\n"

end Graph

end DatasetLineage
