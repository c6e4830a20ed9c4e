/-!
Boxes on a canvas whose coordinates have 32 bits. A sum that leaves this range is refused rather
than wrapped.
-/

namespace Foldergram

/-- A sum of coordinates left the 32-bit range. -/
inductive Overflow where
  | sum
  deriving DecidableEq, Repr

abbrev Checked := Except Overflow

/-- The greatest coordinate. -/
def coordinateLimit : Nat := 4294967295

def plus (a b : Nat) : Checked Nat :=
  if a + b ≤ coordinateLimit then .ok (a + b) else .error .sum

structure Size where
  width : Nat
  height : Nat
  deriving DecidableEq, Repr

structure Position where
  x : Nat
  y : Nat
  deriving DecidableEq, Repr

/-- A box, placed relative to the corner of the folder around it. -/
structure Box where
  x : Nat := 0
  y : Nat := 0
  width : Nat := 0
  height : Nat := 0
  deriving DecidableEq, Repr

namespace Box

def ofCorner (p : Position) (s : Size) : Box :=
  ⟨p.x, p.y, s.width, s.height⟩

def right (b : Box) : Checked Nat :=
  plus b.x b.width

def bottom (b : Box) : Checked Nat :=
  plus b.y b.height

/-- Whether two boxes share any interior area. Later edges are not computed once two are apart. -/
def overlaps (a b : Box) : Checked Bool := do
  if a.x < (← b.right) then
    if b.x < (← a.right) then
      if a.y < (← b.bottom) then
        return decide (b.y < (← a.bottom))
  return false

end Box

end Foldergram
