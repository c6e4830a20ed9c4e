/-! Membership of a character in a sorted table of code ranges. -/

namespace Foldergram.Text

/-- Whether the code of `c` lies in one of the closed ranges. -/
def inRanges (ranges : Array (Nat × Nat)) (c : Char) : Bool :=
  ranges.any fun (first, last) => first ≤ c.toNat && c.toNat ≤ last

end Foldergram.Text
