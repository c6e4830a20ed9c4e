import Foldergram.Canvas
import Foldergram.Projection.Basic
import Foldergram.Projection.Visibility

/-!
Projecting a canvas and its dependencies onto what is visible. An edge goes to the visible ancestors
of its ends; one that starts and ends at the same node is suppressed.
-/

namespace Foldergram

/-- Routes the dependency at `ordinal`, unless an end names no item of the tree. -/
def route (t : FolderTree) (links : List Link) (f : Folding) (ordinal : Nat) (d : Dependency) :
    Except DanglingEdge RoutedEdge :=
  if (t.get? d.source).isNone then .error ⟨ordinal, d.source⟩
  else if (t.get? d.target).isNone then .error ⟨ordinal, d.target⟩
  else
    let source := visibleAncestor links f d.source
    let target := visibleAncestor links f d.target
    .ok {
      id := s!"e-{d.source}-{d.target}-{ordinal}"
      source := d.source
      target := d.target
      sourceVisible := source
      targetVisible := target
      suppressed := source == target }

def routeAll (t : FolderTree) (f : Folding) (edges : List Dependency) :
    List (Except DanglingEdge RoutedEdge) :=
  let links := t.upwardLinks
  edges.zipIdx.map fun (d, ordinal) => route t links f ordinal d

def routed? : Except DanglingEdge RoutedEdge → Option RoutedEdge
  | .ok e => some e
  | .error _ => none

def dangling? : Except DanglingEdge RoutedEdge → Option DanglingEdge
  | .ok _ => none
  | .error d => some d

/-- The ids of nodes at which a drawn edge starts or ends. -/
def externalIds (edges : List RoutedEdge) : List String :=
  (edges.filter (!·.suppressed)).flatMap fun e => [e.sourceVisible, e.targetVisible]

def Canvas.node (c : Canvas) (external : List String) (item : Item) (folder : Option String) :
    PositionedNode where
  id := item.id
  kind := if item.isFolder then .folder else .file
  box := c.box item.id
  color := c.color item.id
  label := item.label
  dependencyCount := item.dependencyCount
  hasExternalEdges := external.contains item.id
  parentId := folder

def Canvas.project (c : Canvas) (edges : List Dependency) (f : Folding) : Projection :=
  let results := routeAll c.tree f edges
  let routed := results.filterMap routed?
  let external := externalIds routed
  { nodes := (c.tree.visible f).map fun (item, folder) => c.node external item folder
    edges := routed
    skipped := results.filterMap dangling? }

end Foldergram
