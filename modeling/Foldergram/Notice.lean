import Foldergram.Diagram.Export
import Foldergram.Glob

/-! What is reported along the way, by level. -/

namespace Foldergram

inductive Level where
  | debug
  | info
  | warn
  deriving DecidableEq, Repr

def Level.word : Level → String
  | .debug => "DEBUG"
  | .info => "INFO"
  | .warn => "WARN"

inductive Notice where
  | badPattern (text : String) (fault : Glob.Fault)
  | excluded (count : Nat)
  | loaded (files folders edges : Nat)
  | skippedEdge (edge : DanglingEdge)
  | recomputed (visible drawn suppressed : Nat)
  | nothingLoaded
  | notAFolder (id : String)
  | crowded (edgeCount : Nat)
  deriving DecidableEq, Repr

namespace Notice

def level : Notice → Level
  | .badPattern _ _ | .skippedEdge _ | .notAFolder _ | .crowded _ => .warn
  | .loaded _ _ _ => .info
  | .excluded _ | .recomputed _ _ _ | .nothingLoaded => .debug

def message : Notice → String
  | .badPattern text fault => s!"ignoring exclude pattern `{text}`: " ++ fault.message
  | .excluded count => s!"excluded {count} node(s) by pattern"
  | .loaded files folders edges => s!"loaded graph: {files} files, {folders} folders, {edges} edges"
  | .skippedEdge edge => "skipping edge: " ++ edge.message
  | .recomputed visible drawn suppressed =>
    s!"recomputed: {visible} visible nodes, {drawn} drawn edges, {suppressed} suppressed"
  | .nothingLoaded => "layout session has no graph loaded; returning empty projection"
  | .notAFolder id => s!"ignoring toggle of `{id}`: not a folder"
  | .crowded edgeCount => crowdedMessage edgeCount

def line (n : Notice) : String :=
  n.level.word ++ " " ++ n.message

end Notice

def Projection.notices (p : Projection) : List Notice :=
  p.skipped.map .skippedEdge

def Export.notices (e : Export) : List Notice :=
  if e.crowded then [.crowded e.edgeCount] else []

end Foldergram
