import Foldergram.Json.Printer
import Foldergram.Report.Format
import Foldergram.Stats
import Foldergram.Text.Column

/-! Reports of the figures about a graph. -/

namespace Foldergram

namespace Report

def statsLines (s : Stats) : List String :=
  [s!"files {s.fileCount} folders {s.folderCount} depth {s.maxDepth}",
    s!"edges {s.edgeCount} drawn {s.activeEdges} suppressed {s.suppressedEdges} dangling {s.danglingEdges}",
    s!"visible {s.visibleNodes} canvas {s.canvasWidth}x{s.canvasHeight}"]

def metrics (s : Stats) : List (String × Nat) :=
  [("files", s.fileCount),
    ("folders", s.folderCount),
    ("max depth", s.maxDepth),
    ("edges", s.edgeCount),
    ("drawn edges", s.activeEdges),
    ("suppressed edges", s.suppressedEdges),
    ("dangling edges", s.danglingEdges),
    ("visible nodes", s.visibleNodes),
    ("canvas width", s.canvasWidth),
    ("canvas height", s.canvasHeight)]

def metricRow (name value : String) : String :=
  Text.padRight 18 name ++ "  " ++ Text.padLeft 8 value

def statsTable (terminal : Bool) (s : Stats) : List String :=
  [heading terminal (metricRow "METRIC" "VALUE"), Text.rule 28] ++
    (metrics s).map fun (name, value) => metricRow name (toString value)

end Report

/-- As JSON the figures keep their own order. -/
def Stats.json (s : Stats) : Json :=
  .obj [
    ("file_count", .int s.fileCount),
    ("folder_count", .int s.folderCount),
    ("max_depth", .int s.maxDepth),
    ("edge_count", .int s.edgeCount),
    ("visible_nodes", .int s.visibleNodes),
    ("active_edges", .int s.activeEdges),
    ("suppressed_edges", .int s.suppressedEdges),
    ("dangling_edges", .int s.danglingEdges),
    ("canvas_width", .int s.canvasWidth),
    ("canvas_height", .int s.canvasHeight)]

def Stats.report (s : Stats) (terminal : Bool) : ReportFormat → String
  | .compact => Report.lines (Report.statsLines s)
  | .table => Report.lines (Report.statsTable terminal s)
  | .json => s.json.pretty ++ "\n"

end Foldergram
