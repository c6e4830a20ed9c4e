import Foldergram.Layout.Packing
import Foldergram.Proofs.Number.Rounding

/-!
The width of a row is exact. The side of the square is a root with 53 bits, rounded up: as long as the width
fits 32 bits it is that of exact arithmetic, and where the root could be wrong the width is cut off anyway.
-/

namespace Foldergram

namespace Packing

open Number

variable {count count' c c' : Nat}

theorem exists_side (count : Nat) : ∃ c, IsLeast {c | count ≤ c * c} c := by
  have hsome : ∃ c, count ≤ c * c := ⟨count, Nat.le_mul_self count⟩
  exact ⟨Nat.find hsome, Nat.find_spec hsome, fun c hc => Nat.find_min' hsome hc⟩

theorem side_mono (hc : IsLeast {c | count ≤ c * c} c) (hc' : IsLeast {c | count' ≤ c * c} c')
    (h : count ≤ count') : c ≤ c' :=
  hc.2 (h.trans hc'.1)

theorem le_side (h : Binary64.leastMantissa ≤ count) (hc : count ≤ c * c) : 67108864 ≤ c := by
  by_contra hlt
  have hsquare : c * c ≤ 67108863 * 67108863 := Nat.mul_self_le_mul_self (by omega)
  rw [Binary64.leastMantissa] at h
  omega

theorem rowLimit_eq (hc : IsLeast {c | count ≤ c * c} c) :
    rowLimit count = max 800 (min 4294967295 (260 * c)) := by
  rw [rowLimit, leastRowWidth, slotWidth, coordinateLimit]
  by_cases h : count < Binary64.leastMantissa
  · rw [Binary64.ceil_sqrt_ofNat_of_lt h hc]
    omega
  · have hroot := Binary64.le_ceil_sqrt_ofNat (Nat.le_of_not_lt h)
    have hside := le_side (Nat.le_of_not_lt h) hc.1
    omega

end Packing

open Packing

/-- The width of a row is that of exact arithmetic: 260 for each of the least number of columns whose square
holds all the boxes, cut off at 32 bits, but at least 800. So it grows with the number of boxes. -/
theorem rowLimit_exact :
    (∀ count, ∃ c, IsLeast {c | count ≤ c * c} c ∧
      rowLimit count = max 800 (min 4294967295 (260 * c))) ∧
    Monotone rowLimit ∧ ∀ count, 800 ≤ rowLimit count := by
  refine ⟨fun count => ?_, fun count count' h => ?_, fun count => Nat.le_max_left ..⟩
  · obtain ⟨c, hc⟩ := exists_side count
    exact ⟨c, hc, rowLimit_eq hc⟩
  · obtain ⟨c, hc⟩ := exists_side count
    obtain ⟨c', hc'⟩ := exists_side count'
    have hside := side_mono hc hc' h
    rw [rowLimit_eq hc, rowLimit_eq hc']
    omega

/-- Right above a square one more column is needed, up to the last width that fits. -/
example : rowLimit 272880796962816 = 4294967040 ∧ rowLimit 272880796962817 = 4294967295 := by decide +kernel

end Foldergram
