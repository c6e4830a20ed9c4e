import Foldergram.Layout.Box
import Foldergram.Palette
import Foldergram.Tree.Ancestry
import Std.Data.ExtTreeMap

/-!
A folder tree with the boxes and colours that its items have got so far. An item keeps its box while
it is hidden, and its colour for good.
-/

namespace Foldergram

structure Canvas where
  tree : FolderTree
  boxes : Std.ExtTreeMap String Box := {}
  colors : Std.ExtTreeMap String String := {}

namespace Canvas

def box (c : Canvas) (id : String) : Box :=
  c.boxes.getD id {}

def setBox (c : Canvas) (id : String) (b : Box) : Canvas :=
  { c with boxes := c.boxes.insert id b }

/-- The colour of an item, empty as long as it has none. -/
def color (c : Canvas) (id : String) : String :=
  c.colors.getD id ""

/-- Gives an item a colour unless it has one. -/
def paintItem (p : Palette) (colors : Std.ExtTreeMap String String) (id : String) :
    Std.ExtTreeMap String String :=
  if colors.getD id "" = "" then colors.insert id (p.color id) else colors

def paint (c : Canvas) (p : Palette) : Canvas :=
  { c with colors := c.tree.created.foldl (paintItem p) c.colors }

/-- The corner of a box on the canvas, from the offsets of the item and of the folders around it. -/
def corner (c : Canvas) (id : String) : Checked Position :=
  (id :: c.tree.ancestors id).foldlM
    (fun sum id => do return ⟨← plus sum.x (c.box id).x, ← plus sum.y (c.box id).y⟩) (⟨0, 0⟩ : Position)

end Canvas

end Foldergram
