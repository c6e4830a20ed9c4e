import Foldergram.Canvas
import Foldergram.Projection.Basic

/-! Figures about a loaded graph and one projection of it. -/

namespace Foldergram

structure Stats where
  fileCount : Nat
  /-- Folders, the root not counted. -/
  folderCount : Nat
  maxDepth : Nat
  /-- Dependencies as delivered, those that lead nowhere included. -/
  edgeCount : Nat
  visibleNodes : Nat
  activeEdges : Nat
  suppressedEdges : Nat
  danglingEdges : Nat
  canvasWidth : Nat
  canvasHeight : Nat
  deriving DecidableEq, Repr

def Canvas.stats (c : Canvas) (edgeCount : Nat) (p : Projection) : Stats where
  fileCount := c.tree.fileCount
  folderCount := c.tree.folderCount - 1
  maxDepth := c.tree.maxDepth
  edgeCount := edgeCount
  visibleNodes := p.nodes.length
  activeEdges := p.activeEdges.length
  suppressedEdges := p.suppressedCount
  danglingEdges := p.skipped.length
  canvasWidth := (c.box rootId).width
  canvasHeight := (c.box rootId).height

end Foldergram
