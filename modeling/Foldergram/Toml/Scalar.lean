import Foldergram.Number.Binary64
import Foldergram.Text.Reader
import Foldergram.Toml.Value

/-! Strings, numbers and moments of TOML. -/

namespace Foldergram.Toml

open Text Text.Reader

def isBlank (c : Char) : Bool :=
  c = ' ' || c = '\t'

/-- Characters that may stand on a line: no control but the tab. -/
def isLineChar (c : Char) : Bool :=
  c = '\t' || (0x20 ≤ c.toNat && c.toNat != 0x7F)

def blanks : Reader Unit := do
  let _ ← takeWhile isBlank

def newline : Reader Unit := do
  if ← optional "\r\n" then return else char '\n'

/-- Blanks and line ends. -/
def blankLines : Reader Unit := do
  let _ ← many ((do let _ ← takeWhile1 isBlank) <|> newline)

/-! Strings. -/

def hexDigitValue? (c : Char) : Option Nat :=
  if '0' ≤ c ∧ c ≤ '9' then some (c.toNat - '0'.toNat)
  else if 'a' ≤ c ∧ c ≤ 'f' then some (c.toNat - 'a'.toNat + 10)
  else if 'A' ≤ c ∧ c ≤ 'F' then some (c.toNat - 'A'.toNat + 10)
  else none

/-- The character with a code of `n` hexadecimal digits. -/
def codeChar (n : Nat) : Reader Char :=
  fun cs => do
    let digits ← (cs.take n).mapM hexDigitValue?
    let code := digits.foldl (fun code d => code * 16 + d) 0
    if digits.length = n ∧ code.isValidChar then some (Char.ofNat code, cs.drop n) else none

/-- What follows a backslash. -/
def escape : Reader Char := do
  match ← satisfy fun _ => true with
  | 'b' => return '\x08'
  | 'f' => return '\x0c'
  | 'n' => return '\n'
  | 'r' => return '\r'
  | 't' => return '\t'
  | '"' => return '"'
  | '\\' => return '\\'
  | 'u' => codeChar 4
  | 'U' => codeChar 8
  | _ => fail

def basicChar : Reader Char := do
  let c ← satisfy fun c => isLineChar c && c != '"'
  if c = '\\' then escape else return c

def basicString : Reader String := do
  char '"'
  let cs ← many basicChar
  char '"'
  return String.ofList cs

def literalString : Reader String := do
  char '\''
  let cs ← takeWhile fun c => isLineChar c && c != '\''
  char '\''
  return String.ofList cs

/-- A backslash at the end of a line takes away the line end and all blanks after it. -/
def lineJoin : Reader (List Char) := do
  char '\\'
  blanks
  newline
  blankLines
  return []

def lineBreak : Reader (List Char) := do
  newline
  return ['\n']

/-- One or two quotes inside a long string: three would close it. -/
def innerQuotes (quote : Char) : Reader (List Char) :=
  fun cs =>
    let run := cs.takeWhile (· = quote)
    if 0 < run.length ∧ run.length < 3 then some (run, cs.drop run.length) else none

/-- The three closing quotes, before which one or two more may stand. -/
def closingQuotes (quote : Char) : Reader (List Char) :=
  fun cs =>
    let run := (cs.takeWhile (· = quote)).length
    if run < 3 then none
    else
      let inner := min (run - 3) 2
      some (List.replicate inner quote, cs.drop (inner + 3))

/-- A long string after its opening quotes; a line end right there does not count. -/
def longString (quote : Char) (piece : Reader (List Char)) : Reader String := do
  newline <|> pure ()
  let pieces ← many (piece <|> innerQuotes quote)
  let last ← closingQuotes quote
  return String.ofList (pieces.flatten ++ last)

def basicPiece : Reader (List Char) :=
  lineJoin <|> (do return [← basicChar]) <|> lineBreak

def literalPiece : Reader (List Char) :=
  (do return [← satisfy fun c => isLineChar c && c != '\'']) <|> lineBreak

def string : Reader String := do
  if ← optional "\"\"\"" then longString '"' basicPiece
  else if ← optional "'''" then longString '\'' literalPiece
  else basicString <|> literalString

/-! Numbers. -/

/-- Digits, between which single underscores may stand. -/
def digits (isDigit : Char → Bool) : Reader (List Char) := do
  let first ← satisfy isDigit
  let rest ← many (do
    let _ ← optional "_"
    satisfy isDigit)
  return first :: rest

/-- A sign, if there is one, and whether it is a minus. -/
def sign : Reader Bool := do
  if ← optional "-" then return true
  let _ ← optional "+"
  return false

/-- A decimal whole number without leading zeros. -/
def decimal : Reader (List Char) := do
  if ← optional "0" then return ['0'] else digits Char.isDigit

def numberIn (base : Nat) (ds : List Char) : Nat :=
  ds.foldl (fun n d => n * base + (hexDigitValue? d).getD 0) 0

def isHexDigit (c : Char) : Bool :=
  (hexDigitValue? c).isSome

/-- Whole numbers have 64 bits. -/
def bounded (n : Int) : Reader Int :=
  if -9223372036854775808 ≤ n ∧ n ≤ 9223372036854775807 then return n else fail

def integer : Reader Int := do
  if ← optional "0x" then bounded (numberIn 16 (← digits isHexDigit))
  else if ← optional "0o" then bounded (numberIn 8 (← digits fun c => '0' ≤ c && c ≤ '7'))
  else if ← optional "0b" then bounded (numberIn 2 (← digits fun c => c = '0' || c = '1'))
  else
    let negative ← sign
    let n : Int := numberIn 10 (← decimal)
    bounded (if negative then -n else n)

/-- Whether a decimal is too great for a binary number of 64 bits. -/
def exceeds (whole fraction : List Char) (exponent : Int) : Bool :=
  let significant := (whole ++ fraction).dropWhile (· = '0')
  let shift : Int := exponent - fraction.length
  let place : Int := significant.length + shift
  if significant.isEmpty || place < 300 then false
  else if 400 < place then true
  else
    let n := numberIn 10 significant
    let x := if 0 ≤ shift then Number.Binary64.ofNat (n * Nat.pow 10 shift.toNat)
      else Number.Binary64.ofRatio n (Nat.pow 10 (-shift).toNat)
    !x.isFinite

def exponent : Reader (Option Int) := do
  match ← peek with
  | some c =>
    if c = 'e' || c = 'E' then
      char c
      let negative ← sign
      let n : Int := numberIn 10 (← digits Char.isDigit)
      return some (if negative then -n else n)
    else return none
  | none => return none

def fraction : Reader (Option (List Char)) := do
  if ← optional "." then return some (← digits Char.isDigit) else return none

/-- A number with a fraction or an exponent. One that is too great is refused, unless it is negative. -/
def decimalFloat : Reader String := do
  let negative ← sign
  let whole ← decimal
  let part ← fraction
  let power ← exponent
  if part.isNone && power.isNone then fail
  else if !negative && exceeds whole (part.getD []) (power.getD 0) then fail
  else
    let head := (if negative then "-" else "") ++ String.ofList whole
    let tail := match part with
      | some ds => "." ++ String.ofList ds
      | none => ""
    return head ++ tail ++ match power with
      | some e => s!"e{e}"
      | none => ""

def float : Reader String :=
  decimalFloat <|> do
    let negative ← sign
    let name ← (do word "inf"; return "inf") <|> (do word "nan"; return "nan")
    return (if negative then "-" else "") ++ name

def boolean : Reader Bool := do
  if ← optional "true" then return true
  word "false"
  return false

/-! Moments: a date, a time of day, or both. -/

/-- A number of exactly `n` digits within bounds. -/
def fixed (n least greatest : Nat) : Reader Nat :=
  fun cs =>
    let ds := cs.take n
    let value := numberIn 10 ds
    if ds.length = n ∧ ds.all Char.isDigit ∧ least ≤ value ∧ value ≤ greatest then some (value, cs.drop n)
    else none

def monthLength (year month : Nat) : Nat :=
  if month = 2 then
    if year % 4 = 0 ∧ (year % 100 ≠ 0 ∨ year % 400 = 0) then 29 else 28
  else if month = 4 ∨ month = 6 ∨ month = 9 ∨ month = 11 then 30
  else 31

def date : Reader Unit := do
  let year ← fixed 4 0 9999
  char '-'
  let month ← fixed 2 1 12
  char '-'
  let _ ← fixed 2 1 (monthLength year month)

def time : Reader Unit := do
  let _ ← fixed 2 0 23
  char ':'
  let _ ← fixed 2 0 59
  char ':'
  let _ ← fixed 2 0 60
  if ← optional "." then
    let _ ← takeWhile1 Char.isDigit

def offset : Reader Unit := do
  let c ← satisfy fun c => c = 'Z' || c = 'z' || c = '+' || c = '-'
  if c = '+' || c = '-' then
    let _ ← fixed 2 0 23
    char ':'
    let _ ← fixed 2 0 59

def timeOfDate : Reader Unit := do
  let _ ← satisfy fun c => c = 'T' || c = 't' || c = ' '
  time
  offset <|> pure ()

def momentEnd : Reader Unit :=
  (do date; timeOfDate <|> pure ()) <|> time

/-- A moment, as it is written. -/
def moment : Reader String :=
  fun cs => do
    let ((), rest) ← momentEnd cs
    return (String.ofList (cs.take (cs.length - rest.length)), rest)

end Foldergram.Toml
