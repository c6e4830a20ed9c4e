import Foldergram.Folding
import Foldergram.Json.Printer
import Foldergram.Projection.Basic
import Foldergram.Report.Format
import Foldergram.Text.Column

/-! Reports of a projection. -/

namespace Foldergram

namespace Report

def kindWord : NodeKind → String
  | .folder => "folder"
  | .file => "file"

def nodeLine (n : PositionedNode) : String :=
  s!"node {n.id} {kindWord n.kind} {n.box.x},{n.box.y} {n.box.width}x{n.box.height}" ++
    if n.hasExternalEdges then " ext" else ""

def edgeLine (e : RoutedEdge) : String :=
  if e.suppressed then s!"hidden {e.sourceVisible} ({e.source} -> {e.target})"
  else s!"edge {e.sourceVisible} -> {e.targetVisible} ({e.source} -> {e.target})"

def compact (p : Projection) : String :=
  lines (p.nodes.map nodeLine ++ p.edges.map edgeLine ++ p.skipped.map (fun d => "skipped " ++ d.message) ++
    [s!"{p.nodes.length} nodes, {p.edges.length} edges ({p.suppressedCount} suppressed)"])

def nodeRow (idWidth : Nat) (id kind x y width height external : String) : String :=
  "  ".intercalate [Text.padRight idWidth id, Text.padRight 6 kind, Text.padLeft 6 x, Text.padLeft 6 y,
    Text.padLeft 6 width, Text.padLeft 6 height, external]

def edgeRow (sourceWidth targetWidth : Nat) (source target status : String) : String :=
  "  ".intercalate [Text.padRight sourceWidth source, Text.padRight targetWidth target, status]

def table (terminal : Bool) (p : Projection) : String :=
  let idWidth := Text.columnWidth 2 (p.nodes.map (·.id))
  let sourceWidth := Text.columnWidth 6 (p.edges.map (·.sourceVisible))
  let targetWidth := Text.columnWidth 6 (p.edges.map (·.targetVisible))
  let nodeRows := p.nodes.map fun n =>
    nodeRow idWidth n.id (kindWord n.kind) (toString n.box.x) (toString n.box.y) (toString n.box.width)
      (toString n.box.height) (if n.hasExternalEdges then "yes" else "")
  let edgeRows := p.edges.map fun e =>
    edgeRow sourceWidth targetWidth e.sourceVisible e.targetVisible
      (if e.suppressed then "suppressed" else "drawn")
  lines (
    [heading terminal (nodeRow idWidth "ID" "KIND" "X" "Y" "WIDTH" "HEIGHT" "EXTERNAL"),
      Text.rule (idWidth + 50)] ++ nodeRows ++
    ["", heading terminal (edgeRow sourceWidth targetWidth "SOURCE" "TARGET" "STATUS"),
      Text.rule (sourceWidth + targetWidth + 12)] ++ edgeRows)

end Report

/-! As JSON every object has its fields in the order of their keys. -/

def NodeKind.json : NodeKind → Json
  | .folder => .str "container"
  | .file => .str "leaf"

def PositionedNode.json (n : PositionedNode) : Json :=
  .obj [
    ("color", .str n.color),
    ("dependency_count", .int n.dependencyCount),
    ("has_external_edges", .bool n.hasExternalEdges),
    ("height", .int n.box.height),
    ("id", .str n.id),
    ("kind", n.kind.json),
    ("label", .str n.label),
    ("parent_id", (n.parentId.map Json.str).getD .null),
    ("width", .int n.box.width),
    ("x", .int n.box.x),
    ("y", .int n.box.y)]

def ArrowHead.json (a : ArrowHead) : Json :=
  .obj [("color", .str a.color), ("height", .int a.height), ("width", .int a.width)]

def EdgeStyle.json (s : EdgeStyle) : Json :=
  .obj [
    ("arrow_head", (s.arrowHead.map ArrowHead.json).getD .null),
    ("hidden", .bool s.hidden),
    ("stroke", .str s.stroke),
    ("stroke_width", .int s.strokeWidth)]

def RoutedEdge.json (e : RoutedEdge) : Json :=
  .obj [
    ("id", .str e.id),
    ("is_suppressed", .bool e.suppressed),
    ("source", .str e.source),
    ("source_visible", .str e.sourceVisible),
    ("style", e.style.json),
    ("target", .str e.target),
    ("target_visible", .str e.targetVisible)]

def Folding.json (f : Folding) : Json :=
  .obj (f.entries.map fun (id, expanded) => (id, .bool expanded))

def Projection.json (p : Projection) (f : Folding) : Json :=
  .obj [
    ("collapse_state", f.json),
    ("edges", .arr (p.edges.map RoutedEdge.json)),
    ("nodes", .arr (p.nodes.map PositionedNode.json)),
    ("skipped", .arr (p.skipped.map fun d => .str d.message))]

/-- The text of a report, for a terminal or not. -/
def Projection.report (p : Projection) (f : Folding) (terminal : Bool) : ReportFormat → String
  | .compact => Report.compact p
  | .table => Report.table terminal p
  | .json => (p.json f).pretty ++ "\n"

end Foldergram
