import Foldergram.Config
import Foldergram.Layout.Pass
import Foldergram.Projection.Route
import Foldergram.Source.Document
import Foldergram.Source.Exclusion
import Foldergram.Stats
import Foldergram.Tree.Build

/-!
Sessions: one loaded graph, laid out and projected anew whenever folders are opened or closed. The
caller owns the folding; a session only reads it.
-/

namespace Foldergram

inductive GraphError where
  | invalidInput (fault : InputFault)
  | notLoaded
  | idCollision (id : String)
  | unknownFolder (id : String)

def GraphError.message : GraphError → String
  | .invalidInput fault => "invalid graph input: " ++ fault.message
  | .notLoaded => "layout session has no graph loaded"
  | .idCollision id => s!"node id collision on `{id}`"
  | .unknownFolder id => s!"`{id}` is not a folder in the loaded graph"

/-- A graph that has been built and coloured. -/
structure LoadedGraph where
  canvas : Canvas
  edges : List Dependency
  /-- Which folders are open right after the load. -/
  initial : Folding

structure Session where
  palette : Palette := .standard
  openDepth : Nat := Folding.standardDepth
  patterns : List Glob.Pattern := []
  loaded : Option LoadedGraph := none

/-- What a step of a session answers, and the session after it. -/
structure Reply (α : Type) where
  session : Session
  result : α
  notices : List Notice := []

namespace Session

def ofConfig (c : Config) : Session where
  palette := c.usedPalette
  openDepth := c.usedDepth
  patterns := c.patterns

def isExcluded (s : Session) (id : String) : Bool :=
  s.patterns.any (·.accepts id)

def isLoaded (s : Session) : Bool :=
  s.loaded.isSome

/-- The dependencies as loaded, without those of excluded files. -/
def edges (s : Session) : List Dependency :=
  match s.loaded with
  | some g => g.edges
  | none => []

def initial? (s : Session) : Option Folding :=
  s.loaded.map (·.initial)

def tree? (s : Session) : Option FolderTree :=
  s.loaded.map (·.canvas.tree)

def unload (s : Session) : Session :=
  { s with loaded := none }

def exclusionNotices (count : Nat) : List Notice :=
  if 0 < count then [.excluded count] else []

/-- Builds and colours a graph. A load that fails leaves nothing loaded. -/
def load (s : Session) (input : SourceGraph) : Reply (Except GraphError Folding) :=
  let g := input.exclude s.isExcluded
  let notices := exclusionNotices (input.excludedCount s.isExcluded)
  match FolderTree.build g.files with
  | .error collision => ⟨s.unload, .error (.idCollision collision.id), notices⟩
  | .ok tree =>
    let initial := Folding.openTo tree s.openDepth
    let loaded : LoadedGraph := ⟨Canvas.paint { tree := tree } s.palette, g.dependencies, initial⟩
    ⟨{ s with loaded := some loaded }, .ok initial,
      notices ++ [.loaded tree.fileCount tree.folderCount g.dependencies.length]⟩

def loadText (s : Session) (text : String) : Reply (Except GraphError Folding) :=
  match SourceGraph.ofText text with
  | .ok input => s.load input
  | .error fault => ⟨s.unload, .error (.invalidInput fault), []⟩

def recomputeNotices (p : Projection) : List Notice :=
  p.notices ++ [.recomputed p.nodes.length p.activeEdges.length p.suppressedCount]

/-- Lays out and projects the loaded graph. -/
def recompute? (s : Session) (f : Folding) : Checked (Reply (Except GraphError Projection)) :=
  match s.loaded with
  | none => .ok ⟨s, .error .notLoaded, []⟩
  | some g => do
    let canvas ← g.canvas.layout f
    let projection := canvas.project g.edges f
    return ⟨{ s with loaded := some { g with canvas := canvas } }, .ok projection,
      recomputeNotices projection⟩

/-- As `recompute?`, with an empty projection when nothing is loaded. -/
def recompute (s : Session) (f : Folding) : Checked (Reply Projection) := do
  let reply ← s.recompute? f
  match reply.result with
  | .ok projection => return ⟨reply.session, projection, reply.notices⟩
  | .error _ => return ⟨reply.session, {}, reply.notices ++ [.nothingLoaded]⟩

/-- Opens or closes a folder and recomputes. An id that is no folder of the loaded graph changes nothing. -/
def toggle (s : Session) (f : Folding) (id : String) (expanded : Bool) :
    Checked (Reply (Folding × Except GraphError Projection)) := do
  let known := match s.tree? with
    | some tree => tree.hasFolder id
    | none => true
  if known then
    let changed := f.set id expanded
    let reply ← s.recompute changed
    return ⟨reply.session, (changed, .ok reply.result), reply.notices⟩
  else return ⟨s, (f, .error (.unknownFolder id)), [.notAFolder id]⟩

/-- Figures about the loaded graph and a projection of it. -/
def stats? (s : Session) (p : Projection) : Option Stats :=
  s.loaded.map fun g => g.canvas.stats g.edges.length p

end Session

end Foldergram
