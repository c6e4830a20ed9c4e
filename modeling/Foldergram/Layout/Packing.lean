import Foldergram.Layout.Box
import Foldergram.Number.Binary64

/-!
Packing boxes into rows, from left to right and from top to bottom. A box that would cross the row
limit starts a new row, unless it is the first of its row.
-/

namespace Foldergram

/-- Height of a folder's title bar, and of a closed folder. -/
def headerHeight : Nat := 60
/-- Distance between a folder's border and its contents. -/
def padding : Nat := 40
/-- Distance between neighbours in a row, and between rows. -/
def gap : Nat := 20

namespace Packing

def leastRowWidth : Nat := 800
def slotWidth : Nat := 260

/-- The width of a row for `count` boxes: about as many slots as there are rows. The side of the square
is a rounded root. -/
def rowLimit (count : Nat) : Nat :=
  let side := min (Number.Binary64.ofNat count).sqrt.ceil coordinateLimit
  max leastRowWidth (min (side * slotWidth) coordinateLimit)

/-- Where the next box goes, the height of its row so far, and the right end of the widest row. -/
structure Cursor where
  x : Nat := padding
  y : Nat := padding + headerHeight
  rowHeight : Nat := 0
  extent : Nat := padding
  deriving DecidableEq, Repr

/-- Moves to a new row if a box of this width would cross the limit. -/
def Cursor.wrap (limit : Nat) (c : Cursor) (width : Nat) : Checked Cursor := do
  if limit < (← plus c.x width) ∧ padding < c.x then
    return { c with x := padding, y := ← plus c.y (← plus c.rowHeight gap), rowHeight := 0 }
  return c

def Cursor.advance (c : Cursor) (size : Size) : Checked Cursor := do
  let x ← plus c.x (← plus size.width gap)
  return { c with x := x, rowHeight := max c.rowHeight size.height, extent := max c.extent x }

/-- The positions of the boxes from here on, and the cursor behind the last of them. -/
def place (limit : Nat) (c : Cursor) : List Size → Checked (List Position × Cursor)
  | [] => .ok ([], c)
  | size :: sizes => do
    let start ← c.wrap limit size.width
    let next ← start.advance size
    let (positions, last) ← place limit next sizes
    return (⟨start.x, start.y⟩ :: positions, last)

end Packing

/-- Positions of the boxes, in their order, and the size of the folder around them. -/
structure Packing where
  positions : List Position
  size : Size
  deriving DecidableEq, Repr

def pack (sizes : List Size) : Checked Packing := do
  let (positions, last) ← Packing.place (Packing.rowLimit sizes.length) {} sizes
  return ⟨positions, last.extent, ← plus (← plus last.y last.rowHeight) padding⟩

end Foldergram
