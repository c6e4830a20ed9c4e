import Foldergram.Number.SquareRoot

/-!
Binary floating numbers with 53 significant bits, without sign. Every operation takes the exact
result to the nearest such number, and a tie to the one with the even mantissa.
-/

namespace Foldergram.Number

/-- The number `mantissa * 2 ^ exponent`. -/
structure Binary64 where
  mantissa : Nat
  exponent : Int
  deriving DecidableEq, Repr

/-- The quotient as the nearest whole number, a tie going to the even one. -/
def roundDiv (num den : Nat) : Nat :=
  let q := num / den
  let r := num % den
  if 2 * r < den then q else if den < 2 * r then q + 1 else q + q % 2

namespace Binary64

/-- The least mantissa of 53 bits. -/
def leastMantissa : Nat := 4503599627370496

def leastExponent : Int := -1074
def greatestExponent : Int := 971

def zero : Binary64 := ⟨0, leastExponent⟩

/-- A number past the greatest exponent is out of range. -/
def isFinite (x : Binary64) : Bool :=
  x.exponent ≤ greatestExponent

/-- The quotient `num / den` counted in units of `2 ^ e`, as a fraction. -/
def inUnits (num den : Nat) (e : Int) : Nat × Nat :=
  if 0 ≤ e then (num, den * Nat.pow 2 e.toNat) else (num * Nat.pow 2 (-e).toNat, den)

/-- The exponent that leaves 53 bits before the point of `num / den`, or the least one. -/
def unitExponent (num den : Nat) : Int :=
  let guess : Int := (num.log2 : Int) - den.log2 - 52
  let (n, d) := inUnits num den guess
  max leastExponent (if n / d < leastMantissa then guess - 1 else guess)

/-- The number with this mantissa, which rounding may have carried to the 54th bit. -/
def normalize (mantissa : Nat) (exponent : Int) : Binary64 :=
  if mantissa = 2 * leastMantissa then ⟨leastMantissa, exponent + 1⟩ else ⟨mantissa, exponent⟩

/-- The number nearest to `num / den`. -/
def ofRatio (num den : Nat) : Binary64 :=
  if num = 0 then zero
  else
    let e := unitExponent num den
    let (n, d) := inUnits num den e
    normalize (roundDiv n d) e

def ofNat (n : Nat) : Binary64 :=
  ofRatio n 1

/-- The value as a fraction. -/
def ratio (x : Binary64) : Nat × Nat :=
  if 0 ≤ x.exponent then (x.mantissa * Nat.pow 2 x.exponent.toNat, 1)
  else (x.mantissa, Nat.pow 2 (-x.exponent).toNat)

def mul (x y : Binary64) : Binary64 :=
  let (a, b) := x.ratio
  let (c, d) := y.ratio
  ofRatio (a * c) (b * d)

def div (x y : Binary64) : Binary64 :=
  let (a, b) := x.ratio
  let (c, d) := y.ratio
  ofRatio (a * d) (b * c)

/-- The nearest number to the square root. No root lies midway between two numbers. -/
def sqrt (x : Binary64) : Binary64 :=
  if x.mantissa = 0 then zero
  else
    let half : Int := ((x.mantissa.log2 : Int) + x.exponent - 104) / 2
    let n := x.mantissa * Nat.pow 2 (x.exponent - 2 * half).toNat
    let r := floorSqrt n
    normalize (if r * r + r < n then r + 1 else r) half

/-- The least whole number that is not below the value. -/
def ceil (x : Binary64) : Nat :=
  let (a, b) := x.ratio
  (a + b - 1) / b

end Binary64

end Foldergram.Number
