import Foldergram.Diagram.Drawing
import Foldergram.Text.Replace

/-! Drawings as Graphviz text. -/

namespace Foldergram.Dot

/-- A label between double quotes: backslashes and quotes are escaped. -/
def escapeLabel (s : String) : String :=
  Text.replaceChar '"' "\\\"" (Text.replaceChar '\\' "\\\\" s)

def boxLine (depth number : Nat) (node : PositionedNode) : String :=
  let dependencies := if 0 < node.dependencyCount then s!"\\n{node.dependencyCount} deps" else ""
  let shape := match node.kind with
    | .folder => " shape=folder"
    | .file => ""
  indent depth ++ s!"n{number} [label=\"" ++ escapeLabel node.label ++ dependencies ++
    "\" fillcolor=\"" ++ node.color ++ "\"" ++ shape ++ "];\n"

def clusterHead (depth number : Nat) (node : PositionedNode) : String :=
  indent depth ++ s!"subgraph cluster_{number} \x7b\n" ++
  indent depth ++ "    label=\"" ++ escapeLabel node.label ++ "\";\n" ++
  indent depth ++ "    style=filled;\n" ++
  indent depth ++ "    fillcolor=\"" ++ node.color ++ "\";\n"

mutual

def figureText (depth : Nat) : Figure → String
  | .box number node => boxLine depth number node
  | .cluster number node inside =>
    clusterHead depth number node ++ figuresText (depth + 1) inside ++ indent depth ++ "\x7d\n"

def figuresText (depth : Nat) : List Figure → String
  | [] => ""
  | figure :: figures => figureText depth figure ++ figuresText depth figures

end

def edgeLine (e : MergedEdge) : String :=
  let label := if 1 < e.count then " label=\"" ++ edgeLabel e.count ++ "\"" else ""
  s!"    n{e.source} -> n{e.target} [color=\"" ++ edgeColor ++ "\" penwidth=2" ++ label ++ "];\n"

def heading : String :=
  "digraph code_graph \x7b\n" ++
  "    rankdir=TB;\n" ++
  "    compound=true;\n" ++
  "    node [shape=box style=filled fontname=monospace];\n"

def render (d : Drawing) : String :=
  heading ++ figuresText 1 d.figures ++ String.join (d.edges.map edgeLine) ++ "\x7d\n"

end Foldergram.Dot
