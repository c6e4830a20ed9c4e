import Foldergram.Canvas
import Foldergram.Folding
import Foldergram.Layout.Packing
import Foldergram.Tree.Display

/-!
Laying out a canvas in place. Every visible item gets its size in its own visit, after everything in it, and
its corner in the visit of the folder around it. The contents of a closed folder are passed over and keep
the boxes that they have.
-/

namespace Foldergram

def fileSize : Size := ⟨220, 70⟩

namespace Folding

def leastWidth : Nat := 150
def greatestWidth : Nat := 1000
def charWidth : Nat := 11
def labelPadding : Nat := 60

end Folding

/-- The width of a closed folder grows with its name, between two bounds. -/
def collapsedWidth (name : String) : Nat :=
  max Folding.leastWidth (min (name.length * Folding.charWidth + Folding.labelPadding) Folding.greatestWidth)

namespace Canvas

def size (c : Canvas) (id : String) : Size :=
  ⟨(c.box id).width, (c.box id).height⟩

/-- Writes the size of an item; its corner stays as it is. -/
def resize (c : Canvas) (id : String) (s : Size) : Canvas :=
  c.setBox id { c.box id with width := s.width, height := s.height }

/-- Writes the corner of an item; its size stays as it is. -/
def moveTo (c : Canvas) (id : String) (p : Position) : Canvas :=
  c.setBox id { c.box id with x := p.x, y := p.y }

/-- Moves siblings to the positions of a packing. -/
def moveAll : Canvas → List Item → List Position → Canvas
  | c, item :: items, position :: positions => moveAll (c.moveTo item.id position) items positions
  | c, _, _ => c

mutual

/-- Visits an item. An open folder reads the sizes of its contents back from the canvas, once they have been
visited, and is packed around them. -/
def visit (f : Folding) (c : Canvas) : Item → Checked Canvas
  | .file _ source => .ok (c.resize source.id fileSize)
  | .folder id name contents =>
    if f.isCollapsed id then .ok (c.resize id ⟨collapsedWidth name, headerHeight⟩)
    else do
      let visited ← visitAll f c contents
      let packing ← pack (contents.map fun item => visited.size item.id)
      return (visited.moveAll contents packing.positions).resize id packing.size

def visitAll (f : Folding) (c : Canvas) : List Item → Checked Canvas
  | [] => .ok c
  | item :: items => do
    let visited ← visit f c item
    visitAll f visited items

end

/-- Lays out what is visible, in display order and with the root at the corner of the canvas. -/
def layout (c : Canvas) (f : Folding) : Checked Canvas :=
  (c.moveTo rootId ⟨0, 0⟩).visit f c.tree.root.display

end Canvas

end Foldergram
