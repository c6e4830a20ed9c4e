import Foldergram.Json.Basic

/-!
JSON numerals. A whole number that fits 64 bits stays exact. Any other numeral becomes a binary
number: the leading digits that fit 64 bits are scaled by the remaining power of ten in one rounded
operation, so its last bit may differ from that of the nearest number.
-/

namespace Foldergram.Json

open Number

/-- The parts of a numeral; `exponent` holds whether it is negative, and its digits. -/
structure Numeral where
  negative : Bool
  whole : List Char
  fraction : List Char
  exponent : Option (Bool × List Char)

def digitValue (c : Char) : Nat :=
  c.toNat - '0'.toNat

/-- Splits off the digits in front; there must be one. -/
def readDigits (cs : List Char) : Option (List Char × List Char) :=
  match cs.takeWhile Char.isDigit with
  | [] => none
  | digits => some (digits, cs.dropWhile Char.isDigit)

/-- A whole part has no leading zero. -/
def readWhole (cs : List Char) : Option (List Char × List Char) := do
  let (digits, rest) ← readDigits cs
  if digits.head? = some '0' ∧ digits.length ≠ 1 then none else some (digits, rest)

def readFraction : List Char → Option (List Char × List Char)
  | '.' :: cs => readDigits cs
  | cs => some ([], cs)

def readExponentDigits (negative : Bool) (cs : List Char) :
    Option (Option (Bool × List Char) × List Char) := do
  let (digits, rest) ← readDigits cs
  return (some (negative, digits), rest)

def readExponent : List Char → Option (Option (Bool × List Char) × List Char)
  | c :: cs =>
    if c = 'e' ∨ c = 'E' then
      match cs with
      | '+' :: cs => readExponentDigits false cs
      | '-' :: cs => readExponentDigits true cs
      | cs => readExponentDigits false cs
    else some (none, c :: cs)
  | [] => some (none, [])

def readUnsigned (negative : Bool) (cs : List Char) : Option (Numeral × List Char) := do
  let (whole, cs) ← readWhole cs
  let (fraction, cs) ← readFraction cs
  let (exponent, cs) ← readExponent cs
  return (⟨negative, whole, fraction, exponent⟩, cs)

def readNumeral : List Char → Option (Numeral × List Char)
  | '-' :: cs => readUnsigned true cs
  | cs => readUnsigned false cs

/-- The greatest number of 64 bits. -/
def wordLimit : Nat := 18446744073709551615

/-- The greatest exponent that is worked out; a greater one leads to zero or out of range. -/
def exponentLimit : Int := 2147483647

/-- Appends digits to `n` as long as the value fits 64 bits; also counts the digits taken. -/
def absorb (n : Nat) : List Char → Nat × Nat
  | [] => (n, 0)
  | c :: cs =>
    let next := n * 10 + digitValue c
    if next ≤ wordLimit then
      let (value, taken) := absorb next cs
      (value, taken + 1)
    else (n, 0)

/-- Divides by `10 ^ k`, by at most `10 ^ 308` at a time. -/
def shrink (x : Binary64) (k : Nat) : Binary64 :=
  if k ≤ 308 then x.div (.ofNat (Nat.pow 10 k))
  else if x.mantissa = 0 then x
  else shrink (x.div (.ofNat (Nat.pow 10 308))) (k - 308)
termination_by k
decreasing_by omega

/-- Scales by a power of ten; a result out of range is refused. -/
def scale (x : Binary64) (e : Int) : Option Binary64 :=
  if e < 0 then some (shrink x (-e).toNat)
  else if x.mantissa = 0 then some x
  else if 308 < e then none
  else
    let y := x.mul (.ofNat (Nat.pow 10 e.toNat))
    if y.isFinite then some y else none

def numberOfDigits (cs : List Char) : Nat :=
  cs.foldl (fun n c => n * 10 + digitValue c) 0

/-- The value of a numeral, unless it is out of range. -/
def Numeral.value? (n : Numeral) : Option Json :=
  let (whole, wholeTaken) := absorb 0 n.whole
  let dropped := n.whole.length - wholeTaken
  let (digits, fractionTaken) := absorb whole n.fraction
  let place : Int := (dropped : Int) - fractionTaken
  let real (x : Option Binary64) := x.map (Json.real n.negative)
  match n.fraction, n.exponent with
  | [], none =>
    if dropped = 0 ∧ ¬ n.negative then some (.int whole)
    else if dropped = 0 ∧ 0 < whole ∧ whole ≤ 9223372036854775808 then some (.int (-whole))
    else real (scale (.ofNat digits) place)
  | _, none => real (scale (.ofNat digits) place)
  | _, some (negative, exponent) =>
    let e : Int := numberOfDigits exponent
    if exponentLimit < e then if digits ≠ 0 ∧ ¬ negative then none else real (some .zero)
    else real (scale (.ofNat digits) (if negative then place - e else place + e))

end Foldergram.Json
