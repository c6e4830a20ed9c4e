import Foldergram.Diagram.Dot
import Foldergram.Diagram.Mermaid

/-! Exporting a projection as the text of a drawing. -/

namespace Foldergram

inductive DrawingFormat where
  | dot
  | mermaid
  deriving DecidableEq, Repr

/-- The file extension of a format. -/
def DrawingFormat.extension : DrawingFormat → String
  | .dot => "dot"
  | .mermaid => "mmd"

def DrawingFormat.render : DrawingFormat → Drawing → String
  | .dot => Dot.render
  | .mermaid => Mermaid.render

/-- More edges than this are hard to read in a Mermaid chart. -/
def mermaidEdgeLimit : Nat := 500

structure Export where
  content : String
  /-- Boxes drawn; open folders are not counted. -/
  nodeCount : Nat
  edgeCount : Nat
  /-- Whether there are more edges than the format bears. -/
  crowded : Bool

def crowdedMessage (edgeCount : Nat) : String :=
  s!"Large graph: {edgeCount} edges may render poorly in Mermaid. " ++
    "Collapse more folders or use --format dot."

def Export.warnings (e : Export) : List String :=
  if e.crowded then [crowdedMessage e.edgeCount] else []

def Projection.exportAs (p : Projection) (f : Folding) (format : DrawingFormat) : Export :=
  let drawing := p.drawing f
  { content := format.render drawing
    nodeCount := p.nodes.countP (!Projection.isCluster f ·)
    edgeCount := drawing.edges.length
    crowded := format = .mermaid && mermaidEdgeLimit < drawing.edges.length }

end Foldergram
