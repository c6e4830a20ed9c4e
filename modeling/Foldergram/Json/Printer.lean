import Foldergram.Json.Basic
import Foldergram.Number.Shortest

/-! JSON text with one item or field a line, two blanks to a level. -/

namespace Foldergram.Json

def hexDigit (n : Nat) : Char :=
  if n < 10 then Char.ofNat ('0'.toNat + n) else Char.ofNat ('a'.toNat + (n - 10))

/-- Only the quote, the backslash and the controls below the blank are escaped. -/
def escapeChar (c : Char) : List Char :=
  if c = '"' then ['\\', '"']
  else if c = '\\' then ['\\', '\\']
  else if c = '\x08' then ['\\', 'b']
  else if c = '\t' then ['\\', 't']
  else if c = '\n' then ['\\', 'n']
  else if c = '\x0c' then ['\\', 'f']
  else if c = '\r' then ['\\', 'r']
  else if c.toNat < 0x20 then ['\\', 'u', '0', '0', hexDigit (c.toNat / 16), hexDigit (c.toNat % 16)]
  else [c]

def stringText (s : String) : String :=
  "\"" ++ String.ofList (s.toList.flatMap escapeChar) ++ "\""

def margin (level : Nat) : String :=
  String.ofList (List.replicate (2 * level) ' ')

def realText (negative : Bool) (magnitude : Number.Binary64) : String :=
  (if negative then "-" else "") ++ magnitude.shortest.text

mutual

/-- The text of a value that stands `level` levels deep. -/
def prettyAt (level : Nat) : Json → String
  | .null => "null"
  | .bool b => if b then "true" else "false"
  | .int n => toString n
  | .real negative magnitude => realText negative magnitude
  | .str s => stringText s
  | .arr [] => "[]"
  | .arr (item :: items) =>
    "[\n" ++ margin (level + 1) ++ prettyAt (level + 1) item ++ prettyItems (level + 1) items ++
      "\n" ++ margin level ++ "]"
  | .obj [] => "\x7b\x7d"
  | .obj ((key, value) :: fields) =>
    "\x7b\n" ++ margin (level + 1) ++ stringText key ++ ": " ++ prettyAt (level + 1) value ++
      prettyFields (level + 1) fields ++ "\n" ++ margin level ++ "\x7d"

/-- The items after the first. -/
def prettyItems (level : Nat) : List Json → String
  | [] => ""
  | item :: items => ",\n" ++ margin level ++ prettyAt level item ++ prettyItems level items

/-- The fields after the first. -/
def prettyFields (level : Nat) : List (String × Json) → String
  | [] => ""
  | (key, value) :: fields =>
    ",\n" ++ margin level ++ stringText key ++ ": " ++ prettyAt level value ++ prettyFields level fields

end

def pretty (value : Json) : String :=
  prettyAt 0 value

end Foldergram.Json
