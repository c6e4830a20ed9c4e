import Foldergram.Number.Binary64
import Mathlib.Data.Nat.Sqrt
import Mathlib.Data.Rat.Floor
import Mathlib.Tactic.Linarith
import Mathlib.Tactic.Positivity
import Mathlib.Tactic.Ring

/-!
The square root of a whole number, computed with 53 bits and rounded up. Below `2 ^ 52` nothing is lost: the
number itself is exact, and the rounded root of a number that is no square stays between the whole numbers on
its two sides. Above, the root is only known to be large.
-/

namespace Foldergram.Number

/-! ### Rounding whole numbers -/

theorem floorSqrt_eq_sqrt (n : Nat) : floorSqrt n = Nat.sqrt n := by
  rw [Nat.eq_sqrt]
  fun_induction floorSqrt n with
  | case1 => simp
  | case2 n h r hle ih =>
    refine ⟨hle, ?_⟩
    have hquarter : n < 4 * (n / 4 + 1) := by omega
    grind
  | case3 n h r hlt ih =>
    have hquarter : 4 * (n / 4) ≤ n := by omega
    refine ⟨?_, by omega⟩
    grind

/-- The whole number nearest to the root of `n`. -/
def nearestRoot (n : Nat) : Nat :=
  let r := floorSqrt n
  if r * r + r < n then r + 1 else r

/-- The root is rounded to nearest: the result is above `a` if the root is above `a + 1 / 2`. -/
theorem lt_nearestRoot_iff {a n : Nat} : a < nearestRoot n ↔ a * a + a < n := by
  have hle := Nat.sqrt_le n
  have hlt := Nat.lt_succ_sqrt n
  simp only [nearestRoot, floorSqrt_eq_sqrt]
  generalize Nat.sqrt n = r at hle hlt
  split
  · rename_i hup
    constructor
    · intro ha
      have : a * a ≤ r * r := Nat.mul_self_le_mul_self (by omega)
      omega
    · intro ha
      by_contra hge
      have : (r + 1) * (r + 1) ≤ a * a := Nat.mul_self_le_mul_self (by omega)
      grind
  · rename_i hdown
    constructor
    · intro ha
      have : (a + 1) * (a + 1) ≤ r * r := Nat.mul_self_le_mul_self ha
      grind
    · intro ha
      by_contra hge
      have : r * r ≤ a * a := Nat.mul_self_le_mul_self (by omega)
      omega

theorem nearestRoot_le {a n : Nat} (h : n ≤ a * a) : nearestRoot n ≤ a := by
  by_contra hlt
  have := lt_nearestRoot_iff.mp (Nat.lt_of_not_le hlt)
  omega

theorem le_nearestRoot {a n : Nat} (h : a * a ≤ n) : a ≤ nearestRoot n := by
  cases a with
  | zero => exact Nat.zero_le _
  | succ a =>
    apply lt_nearestRoot_iff.mpr
    grind

theorem roundDiv_one (n : Nat) : roundDiv n 1 = n := by
  simp [roundDiv, Nat.mod_one]

theorem roundDiv_bounds (num den : Nat) :
    num / den ≤ roundDiv num den ∧ roundDiv num den ≤ num / den + 1 := by
  simp only [roundDiv]
  split
  · omega
  · split <;> omega

namespace Binary64

variable {x : Binary64} {n : Nat}

/-! ### Values -/

def value (x : Binary64) : ℚ :=
  x.mantissa * 2 ^ x.exponent

theorem value_normalize (m : Nat) (e : Int) : (normalize m e).value = m * 2 ^ e := by
  unfold normalize
  split
  · rename_i h
    have htwo : (2 : ℚ) ≠ 0 := two_ne_zero
    simp only [value, h, zpow_add_one₀ htwo]
    push_cast
    ring
  · rfl

theorem value_eq_ratio (x : Binary64) : x.value = x.ratio.1 / x.ratio.2 ∧ 0 < x.ratio.2 := by
  unfold value ratio
  split
  · rename_i h
    obtain ⟨k, hk⟩ := Int.eq_ofNat_of_zero_le h
    simp [hk]
  · rename_i h
    obtain ⟨k, hk⟩ : ∃ k : Nat, x.exponent = -k := ⟨(-x.exponent).toNat, by omega⟩
    simp [hk, div_eq_mul_inv]

theorem ceil_eq (x : Binary64) : x.ceil = ⌈x.value⌉₊ := by
  obtain ⟨hvalue, hpos⟩ := value_eq_ratio x
  apply eq_of_forall_ge_iff
  intro c
  have hq : (0 : ℚ) < x.ratio.2 := by exact_mod_cast hpos
  rw [Nat.ceil_le, hvalue, div_le_iff₀ hq, ceil, Nat.div_le_iff_le_mul_add_pred hpos]
  norm_cast
  rw [Nat.mul_comm c]
  omega

/-! ### The number nearest to a whole number -/

theorem leastMantissa_eq : leastMantissa = 2 ^ 52 := rfl

/-- A number in the units that leave it 53 bits before the point, as a fraction. -/
def scaled (n : Nat) : Nat × Nat :=
  inUnits n 1 ((n.log2 : Int) - 52)

theorem scaled_of_lt (h : n.log2 < 52) : scaled n = (n * 2 ^ (52 - n.log2), 1) := by
  have hneg : ¬ (0 : Int) ≤ (n.log2 : Int) - 52 := by omega
  have hk : (-((n.log2 : Int) - 52)).toNat = 52 - n.log2 := by omega
  simp only [scaled, inUnits, if_neg hneg, hk, Nat.pow_eq]

theorem scaled_of_le (h : 52 ≤ n.log2) : scaled n = (n, 2 ^ (n.log2 - 52)) := by
  have hk : (n.log2 : Int) - 52 = (n.log2 - 52 : Nat) := by omega
  simp [scaled, inUnits, hk]

theorem scaled_bounds (h0 : 0 < n) :
    leastMantissa ≤ (scaled n).1 / (scaled n).2 ∧ (scaled n).1 / (scaled n).2 < 2 * leastMantissa := by
  have hle : 2 ^ n.log2 ≤ n := Nat.log2_self_le h0.ne'
  have hlt : n < 2 ^ n.log2 * 2 := Nat.lt_log2_self
  rw [leastMantissa_eq]
  by_cases h : n.log2 < 52
  · have hpow : 2 ^ n.log2 * 2 ^ (52 - n.log2) = 2 ^ 52 := by
      rw [← pow_add]
      congr 1
      omega
    have hpos : 0 < 2 ^ (52 - n.log2) := by positivity
    rw [scaled_of_lt h, Nat.div_one, ← hpow]
    constructor
    · exact Nat.mul_le_mul_right _ hle
    · nlinarith
  · have hpow : 2 ^ n.log2 = 2 ^ 52 * 2 ^ (n.log2 - 52) := by
      rw [← pow_add]
      congr 1
      omega
    have hpos : 0 < 2 ^ (n.log2 - 52) := by positivity
    rw [scaled_of_le (Nat.le_of_not_lt h), Nat.le_div_iff_mul_le hpos, Nat.div_lt_iff_lt_mul hpos]
    constructor <;> linarith

theorem ofNat_eq (h0 : 0 < n) :
    ofNat n = normalize (roundDiv (scaled n).1 (scaled n).2) ((n.log2 : Int) - 52) := by
  have hunit : unitExponent n 1 = (n.log2 : Int) - 52 := by
    have hone : Nat.log2 1 = 0 := (Nat.log2_eq_iff one_ne_zero).mpr (by decide)
    have hguess : (n.log2 : Int) - (Nat.log2 1 : Int) - 52 = (n.log2 : Int) - 52 := by
      rw [hone]
      omega
    have hfull : ¬ (inUnits n 1 ((n.log2 : Int) - 52)).1 / (inUnits n 1 ((n.log2 : Int) - 52)).2 <
        leastMantissa := Nat.not_lt.mpr (scaled_bounds h0).1
    simp only [unitExponent, hguess, if_neg hfull, leastExponent]
    omega
  rw [ofNat, ofRatio, if_neg h0.ne', hunit]
  rfl

/-- A number below `2 ^ 52` is exact. -/
theorem ofNat_eq_of_lt (h0 : 0 < n) (h : n < leastMantissa) :
    ofNat n = ⟨n * 2 ^ (52 - n.log2), (n.log2 : Int) - 52⟩ := by
  have hlog : n.log2 < 52 := (Nat.log2_lt h0.ne').mpr h
  have hlt := (scaled_bounds h0).2
  rw [scaled_of_lt hlog, Nat.div_one] at hlt
  rw [ofNat_eq h0, scaled_of_lt hlog, roundDiv_one, normalize, if_neg hlt.ne]

/-- A greater number has its 53 bits before the point, whether it is rounded or not. -/
theorem ofNat_of_le (h : leastMantissa ≤ n) : ∃ m e : Nat, ofNat n = ⟨m, e⟩ ∧
    leastMantissa ≤ m ∧ m < 2 * leastMantissa := by
  have h0 : 0 < n := Nat.lt_of_lt_of_le (by decide) h
  have hlog : 52 ≤ n.log2 := (Nat.le_log2 h0.ne').mpr h
  have hexponent : (n.log2 : Int) - 52 = (n.log2 - 52 : Nat) := by omega
  obtain ⟨hle, hlt⟩ := scaled_bounds h0
  obtain ⟨hdown, hup⟩ := roundDiv_bounds (scaled n).1 (scaled n).2
  rw [ofNat_eq h0, normalize, hexponent]
  split
  · exact ⟨leastMantissa, n.log2 - 52 + 1, rfl, Nat.le_refl _, by decide⟩
  · exact ⟨_, n.log2 - 52, rfl, by omega, by omega⟩

/-! ### The number nearest to a root -/

/-- A mantissa of 53 bits is brought to 105 or 106, with an even exponent, before the root is taken. -/
theorem sqrt_eq {m : Nat} (e : Int) (hle : leastMantissa ≤ m) (hlt : m < 2 * leastMantissa) :
    sqrt ⟨m, e⟩ =
      normalize (nearestRoot (m * 2 ^ (e - 2 * ((e - 52) / 2)).toNat)) ((e - 52) / 2) := by
  have hm : m ≠ 0 := by
    rintro rfl
    exact absurd hle (by decide)
  have hlog : m.log2 = 52 := (Nat.log2_eq_iff hm).mpr ⟨hle, hlt⟩
  have hhalf : ((52 : Nat) : Int) + e - 104 = e - 52 := by omega
  simp only [sqrt, if_neg hm, hlog, hhalf, nearestRoot, Nat.pow_eq]

theorem sqrt_ofNat_of_lt (h0 : 0 < n) (h : n < leastMantissa) : ∃ k : Nat,
    (ofNat n).sqrt = normalize (nearestRoot (n * 4 ^ k)) (-k) ∧
      leastMantissa * leastMantissa ≤ n * 4 ^ k := by
  have hlog : n.log2 < 52 := (Nat.log2_lt h0.ne').mpr h
  obtain ⟨hle, hlt⟩ := scaled_bounds h0
  rw [scaled_of_lt hlog, Nat.div_one] at hle hlt
  obtain ⟨k, hk⟩ : ∃ k : Nat, ((n.log2 : Int) - 52 - 52) / 2 = -k :=
    ⟨(-(((n.log2 : Int) - 52 - 52) / 2)).toNat, by omega⟩
  have hshift : ((n.log2 : Int) - 52 - 2 * -k).toNat = 2 * k - (52 - n.log2) := by omega
  have hscaled : n * 2 ^ (52 - n.log2) * 2 ^ (2 * k - (52 - n.log2)) = n * 4 ^ k := by
    rw [Nat.mul_assoc, ← pow_add, Nat.add_sub_cancel' (by omega), pow_mul]
    norm_num
  refine ⟨k, ?_, ?_⟩
  · rw [ofNat_eq_of_lt h0 h, sqrt_eq _ hle hlt, hk, hshift, hscaled]
  · rw [← hscaled]
    apply Nat.mul_le_mul hle
    rw [leastMantissa_eq]
    exact Nat.pow_le_pow_right (by decide) (by omega)

theorem ceil_normalize_le_iff {r k c : Nat} : (normalize r (-k)).ceil ≤ c ↔ r ≤ c * 2 ^ k := by
  have hpos : (0 : ℚ) < 2 ^ k := by positivity
  rw [ceil_eq, Nat.ceil_le, value_normalize, zpow_neg, zpow_natCast, ← div_eq_mul_inv, div_le_iff₀ hpos]
  norm_cast

/-- With enough bits behind the point, a root that is no whole number is not rounded to one below it. -/
theorem ceil_root_eq {c k : Nat} (hk : n ≤ 4 ^ k) (hc : IsLeast {c | n ≤ c * c} c) :
    (normalize (nearestRoot (n * 4 ^ k)) (-k)).ceil = c := by
  obtain ⟨hsquare, hleast⟩ := hc
  have hfour : 4 ^ k = 2 ^ k * 2 ^ k := Nat.mul_pow 2 2 k
  apply Nat.le_antisymm
  · rw [ceil_normalize_le_iff]
    apply nearestRoot_le
    calc n * 4 ^ k ≤ c * c * 4 ^ k := Nat.mul_le_mul_right _ hsquare
      _ = c * 2 ^ k * (c * 2 ^ k) := by rw [hfour]; ring
  · by_contra hlt
    obtain ⟨b, rfl⟩ : ∃ b, c = b + 1 := ⟨c - 1, by omega⟩
    have hb : (normalize (nearestRoot (n * 4 ^ k)) (-k)).ceil ≤ b := by omega
    rw [ceil_normalize_le_iff, ← Nat.not_lt, lt_nearestRoot_iff] at hb
    have hbelow : b * b < n := by
      by_contra hge
      exact absurd (hleast (Nat.le_of_not_lt hge)) (by omega)
    have hunit : b < 2 ^ k := Nat.mul_self_lt_mul_self_iff.mp (by omega)
    apply hb
    calc b * 2 ^ k * (b * 2 ^ k) + b * 2 ^ k < b * 2 ^ k * (b * 2 ^ k) + 2 ^ k * 2 ^ k :=
          Nat.add_lt_add_left (Nat.mul_lt_mul_of_pos_right hunit (by positivity)) _
      _ = (b * b + 1) * 4 ^ k := by rw [hfour]; ring
      _ ≤ n * 4 ^ k := Nat.mul_le_mul_right _ hbelow

/-- Below `2 ^ 52` the root rounded up is the exact one. -/
theorem ceil_sqrt_ofNat_of_lt {c : Nat} (h : n < leastMantissa) (hc : IsLeast {c | n ≤ c * c} c) :
    (ofNat n).sqrt.ceil = c := by
  rcases Nat.eq_zero_or_pos n with rfl | h0
  · have hzero : c = 0 := Nat.le_zero.mp (hc.2 (Nat.zero_le _))
    have hvalue : (ofNat 0).sqrt.value = 0 := by simp [ofNat, ofRatio, sqrt, zero, value]
    rw [ceil_eq, hvalue, hzero, Nat.ceil_zero]
  · obtain ⟨k, hsqrt, hlarge⟩ := sqrt_ofNat_of_lt h0 h
    have hmul : leastMantissa * leastMantissa ≤ leastMantissa * 4 ^ k :=
      hlarge.trans (Nat.mul_le_mul_right _ h.le)
    have hk : leastMantissa ≤ 4 ^ k := Nat.le_of_mul_le_mul_left hmul (by decide)
    rw [hsqrt, ceil_root_eq (h.le.trans hk) hc]

/-- From `2 ^ 52` on the root is at least `2 ^ 26`. -/
theorem le_ceil_sqrt_ofNat (h : leastMantissa ≤ n) : 67108864 ≤ (ofNat n).sqrt.ceil := by
  obtain ⟨m, e, heq, hle, hlt⟩ := ofNat_of_le h
  have hroot : leastMantissa ≤ nearestRoot (m * 2 ^ ((e : Int) - 2 * (((e : Int) - 52) / 2)).toNat) := by
    apply le_nearestRoot
    apply Nat.mul_le_mul hle
    rw [leastMantissa_eq]
    exact Nat.pow_le_pow_right (by decide) (by omega)
  have hpow : (2 : ℚ) ^ (-26 : Int) ≤ 2 ^ (((e : Int) - 52) / 2) :=
    zpow_le_zpow_right₀ (by norm_num) (by omega)
  have hvalue : (67108864 : ℚ) ≤ (ofNat n).sqrt.value := by
    rw [heq, sqrt_eq _ hle hlt, value_normalize]
    calc (67108864 : ℚ) = (leastMantissa : ℚ) * 2 ^ (-26 : Int) := by norm_num [leastMantissa]
      _ ≤ _ := by gcongr
  rw [ceil_eq]
  exact_mod_cast hvalue.trans (Nat.le_ceil _)

end Binary64

end Foldergram.Number
