import Foldergram.Number.Binary64

/-!
The shortest decimal that reads back as a given binary number: of all decimals that round to it, one
with the fewest digits, and of those the nearest, a tie going to the even last digit.
-/

namespace Foldergram.Number

/-- The decimal `digits * 10 ^ exponent`. -/
structure Decimal where
  digits : Nat
  exponent : Int
  deriving DecidableEq, Repr

/-- The place of the leading digit of a positive fraction. -/
def leadingPlace (num den : Nat) : Int :=
  if den ≤ num then ((Nat.toDigits 10 (num / den)).length : Int) - 1
  else -((Nat.toDigits 10 ((den + num - 1) / num - 1)).length : Int)

namespace Binary64

/-- The reals that round to a number, in quarters of its unit; the ends belong to it when its mantissa is
even. -/
structure Cell where
  low : Nat
  high : Nat
  closed : Bool

def cell (x : Binary64) : Cell where
  low := if x.mantissa = leastMantissa && x.exponent != leastExponent then 4 * x.mantissa - 1 else 4 * x.mantissa - 2
  high := 4 * x.mantissa + 2
  closed := x.mantissa % 2 == 0

/-- Whether `num / den`, in quarters of the unit, lies in the cell. -/
def Cell.holds (c : Cell) (num den : Nat) : Bool :=
  if c.closed then c.low * den ≤ num && num ≤ c.high * den else c.low * den < num && num < c.high * den

/-- The fraction `n * 10 ^ k` in quarters of the unit of `x`. -/
def inQuarters (x : Binary64) (n : Nat) (k : Int) : Nat × Nat :=
  let num := if 0 ≤ k then n * Nat.pow 10 k.toNat else n
  let den := if 0 ≤ k then 1 else Nat.pow 10 (-k).toNat
  inUnits num den (x.exponent - 2)

/-- The best decimal for `x` with its last digit at place `k`, if one lies in the cell. -/
def decimalAt? (x : Binary64) (k : Int) : Option Decimal :=
  let (num, den) := x.ratio
  let below := if 0 ≤ k then num / (den * Nat.pow 10 k.toNat) else num * Nat.pow 10 (-k).toNat / den
  let hits n := let (a, b) := x.inQuarters n k; x.cell.holds a b
  let (a, b) := x.inQuarters below k
  let (c, d) := x.inQuarters (below + 1) k
  let fromBelow := (4 * x.mantissa * b - a) * d
  let fromAbove := (c - 4 * x.mantissa * d) * b
  match hits below, hits (below + 1) with
  | true, true =>
    let upper := fromAbove < fromBelow || (fromAbove == fromBelow && below % 2 == 1)
    some ⟨if upper then below + 1 else below, k⟩
  | true, false => some ⟨below, k⟩
  | false, true => some ⟨below + 1, k⟩
  | false, false => none

/-- Tries ever more digits; seventeen always suffice. -/
def shortestFrom (x : Binary64) (k : Int) : Nat → Decimal
  | 0 => ⟨0, 0⟩
  | n + 1 =>
    match x.decimalAt? k with
    | some d => d
    | none => shortestFrom x (k - 1) n

def shortest (x : Binary64) : Decimal :=
  if x.mantissa = 0 then ⟨0, 0⟩
  else
    let (num, den) := x.ratio
    shortestFrom x (leadingPlace num den) 17

end Binary64

/-- Positional from 0.00001 up to sixteen places before the point, and always with a digit after the
point; scientific beyond, with the sign of the exponent. -/
def Decimal.text (d : Decimal) : String :=
  if d.digits = 0 then "0.0"
  else
    let all := Nat.toDigits 10 d.digits
    let digits := (all.reverse.dropWhile (· == '0')).reverse
    let place : Int := d.exponent + (all.length - 1 : Nat)
    let text (cs : List Char) := String.ofList cs
    if 0 ≤ place && place < 16 then
      let whole := place.toNat + 1
      let front := digits.take whole ++ List.replicate (whole - digits.length) '0'
      let back := digits.drop whole
      text front ++ "." ++ if back.isEmpty then "0" else text back
    else if -5 ≤ place && place < 0 then
      "0." ++ text (List.replicate ((-place).toNat - 1) '0' ++ digits)
    else
      let back := digits.drop 1
      text (digits.take 1) ++ (if back.isEmpty then "" else "." ++ text back) ++
        (if place < 0 then "e-" else "e+") ++ toString place.natAbs

end Foldergram.Number
