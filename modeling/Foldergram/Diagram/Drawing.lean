import Foldergram.Folding
import Foldergram.Projection.Basic

/-!
Drawings: nested figures with edges between them. Every node goes by its position in the projection,
and the edges between one pair of nodes are merged into one.
-/

namespace Foldergram

/-- An open folder is drawn around its contents, anything else as a box. -/
inductive Figure where
  | box (number : Nat) (node : PositionedNode)
  | cluster (number : Nat) (node : PositionedNode) (inside : List Figure)

namespace Figure

def number : Figure → Nat
  | .box number _ => number
  | .cluster number _ _ => number

mutual

/-- The numbered nodes of a figure, a folder before its contents. -/
def nodes : Figure → List (Nat × PositionedNode)
  | .box number node => [(number, node)]
  | .cluster number node inside => (number, node) :: nodesOf inside

def nodesOf : List Figure → List (Nat × PositionedNode)
  | [] => []
  | figure :: figures => figure.nodes ++ nodesOf figures

end

end Figure

/-- All edges from one node to another, `count` of them. -/
structure MergedEdge where
  source : Nat
  target : Nat
  count : Nat
  deriving DecidableEq, Repr

/-- Counts one more edge; the list is in the order of source and target. -/
def tally (source target : Nat) : List MergedEdge → List MergedEdge
  | [] => [⟨source, target, 1⟩]
  | e :: edges =>
    if source < e.source ∨ source = e.source ∧ target < e.target then ⟨source, target, 1⟩ :: e :: edges
    else if source = e.source ∧ target = e.target then { e with count := e.count + 1 } :: edges
    else e :: tally source target edges

namespace Projection

/-- The position of a node, the last one if an id is repeated. -/
def position? (p : Projection) (id : String) : Option Nat :=
  (p.nodes.zipIdx.reverse.find? fun (node, _) => node.id = id).map (·.2)

/-- The nodes directly in a folder, with their positions. -/
def childrenOf (p : Projection) (id : String) : List (PositionedNode × Nat) :=
  p.nodes.zipIdx.filter fun (node, _) => node.parentId = some id

def isCluster (f : Folding) (node : PositionedNode) : Bool :=
  node.kind = .folder && f.isExpanded node.id

/-- The figure of a node. Nesting never goes deeper than the number of nodes, which `levels` starts at. -/
def figure (p : Projection) (f : Folding) : (levels : Nat) → PositionedNode × Nat → Figure
  | 0, (node, number) => .box number node
  | levels + 1, (node, number) =>
    if isCluster f node then .cluster number node ((p.childrenOf node.id).map (figure p f levels))
    else .box number node

/-- The nodes drawn at the top: the contents of the root when it is open, and else the root. -/
def topLevel (p : Projection) (f : Folding) : List (PositionedNode × Nat) :=
  match p.nodes with
  | [] => []
  | root :: _ => if isCluster f root then p.childrenOf root.id else [(root, 0)]

/-- The drawn edges by position; an end that is not on screen drops its edge. -/
def mergedEdges (p : Projection) : List MergedEdge :=
  p.activeEdges.foldl (fun edges e =>
    match p.position? e.sourceVisible, p.position? e.targetVisible with
    | some source, some target => tally source target edges
    | _, _ => edges) []

end Projection

structure Drawing where
  figures : List Figure
  edges : List MergedEdge

def Projection.drawing (p : Projection) (f : Folding) : Drawing where
  figures := (p.topLevel f).map (p.figure f p.nodes.length)
  edges := p.mergedEdges

/-- What is written at an edge that stands for several. -/
def edgeLabel (count : Nat) : String :=
  if count = 1 then "1 dependency" else s!"{count} dependencies"

/-- Four blanks to a level. -/
def indent (depth : Nat) : String :=
  String.ofList (List.replicate (4 * depth) ' ')

end Foldergram
