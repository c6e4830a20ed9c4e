import Foldergram.Diagram.Drawing
import Foldergram.Text.Replace

/-! Drawings as Mermaid flowcharts. -/

namespace Foldergram.Mermaid

/-- A label between double quotes: quotes, angle brackets and braces become entities. -/
def escapeLabel (s : String) : String :=
  Text.replaceChar '\x7d' "&#125;" <|
  Text.replaceChar '\x7b' "&#123;" <|
  Text.replaceChar '>' "&gt;" <|
  Text.replaceChar '<' "&lt;" <|
  Text.replaceChar '"' "&quot;" s

def boxLine (depth number : Nat) (node : PositionedNode) : String :=
  match node.kind with
  | .folder => indent depth ++ s!"n{number}[[\"" ++ escapeLabel node.label ++ "\"]]\n"
  | .file => indent depth ++ s!"n{number}[\"" ++ escapeLabel node.label ++ "\"]\n"

mutual

def figureText (depth : Nat) : Figure → String
  | .box number node => boxLine depth number node
  | .cluster number node inside =>
    indent depth ++ s!"subgraph n{number}[\"" ++ escapeLabel node.label ++ "\"]\n" ++
      figuresText (depth + 1) inside ++ indent depth ++ "end\n"

def figuresText (depth : Nat) : List Figure → String
  | [] => ""
  | figure :: figures => figureText depth figure ++ figuresText depth figures

end

def edgeLine (e : MergedEdge) : String :=
  if e.count = 1 then s!"    n{e.source} --> n{e.target}\n"
  else s!"    n{e.source} -->|\"" ++ edgeLabel e.count ++ s!"\"| n{e.target}\n"

def styleLine (number : Nat) (node : PositionedNode) : String :=
  s!"    style n{number} fill:" ++ node.color ++ "\n"

def render (d : Drawing) : String :=
  "flowchart TB\n" ++ figuresText 1 d.figures ++ String.join (d.edges.map edgeLine) ++
    String.join ((Figure.nodesOf d.figures).map fun (number, node) => styleLine number node)

end Foldergram.Mermaid
