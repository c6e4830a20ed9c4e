/-! The integer part of a square root. -/

namespace Foldergram.Number

/-- The greatest `r` with `r * r ≤ n`. -/
def floorSqrt (n : Nat) : Nat :=
  if h : n = 0 then 0
  else
    let r := 2 * floorSqrt (n / 4)
    if (r + 1) * (r + 1) ≤ n then r + 1 else r
termination_by n
decreasing_by omega

end Foldergram.Number
