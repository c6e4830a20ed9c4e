import Foldergram.Layout.Box

/-! What is on screen: the visible nodes, and the dependencies as they are drawn between them. -/

namespace Foldergram

inductive NodeKind where
  | folder
  | file
  deriving DecidableEq, Repr

structure PositionedNode where
  id : String
  kind : NodeKind
  box : Box
  color : String
  label : String
  dependencyCount : Nat
  /-- Whether a drawn edge starts or ends here. -/
  hasExternalEdges : Bool
  /-- The folder around the node; the root has none. -/
  parentId : Option String
  deriving DecidableEq, Repr

/-- A dependency, attached to the nodes that stand for its ends on screen. -/
structure RoutedEdge where
  id : String
  source : String
  target : String
  sourceVisible : String
  targetVisible : String
  /-- Both ends are shown by the same node, so nothing is drawn. -/
  suppressed : Bool
  deriving DecidableEq, Repr

structure ArrowHead where
  width : Nat
  height : Nat
  color : String
  deriving DecidableEq, Repr

structure EdgeStyle where
  hidden : Bool
  stroke : String
  strokeWidth : Nat
  arrowHead : Option ArrowHead
  deriving DecidableEq, Repr

def edgeColor : String := "#A9A9A9"

def RoutedEdge.style (e : RoutedEdge) : EdgeStyle :=
  if e.suppressed then ⟨true, edgeColor, 0, none⟩
  else ⟨false, edgeColor, 2, some ⟨15, 15, edgeColor⟩⟩

/-- A dependency with an end that names no item: its position among the dependencies, and the name. -/
structure DanglingEdge where
  edge : Nat
  id : String
  deriving DecidableEq, Repr

def DanglingEdge.message (d : DanglingEdge) : String :=
  s!"edge #{d.edge} references unknown node `{d.id}`"

structure Projection where
  /-- Visible nodes, a folder before its contents. -/
  nodes : List PositionedNode := []
  edges : List RoutedEdge := []
  skipped : List DanglingEdge := []
  deriving DecidableEq, Repr

namespace Projection

def isEmpty (p : Projection) : Bool :=
  p.nodes.isEmpty && p.edges.isEmpty

def node? (p : Projection) (id : String) : Option PositionedNode :=
  p.nodes.find? (·.id = id)

def activeEdges (p : Projection) : List RoutedEdge :=
  p.edges.filter (!·.suppressed)

def suppressedCount (p : Projection) : Nat :=
  p.edges.countP (·.suppressed)

end Projection

end Foldergram
