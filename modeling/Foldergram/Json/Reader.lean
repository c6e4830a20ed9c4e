import Foldergram.Json.Numeral

/-!
Reading JSON text. A reader takes the characters that are left and returns what it read with the
rest, or nothing when the text is malformed.
-/

namespace Foldergram.Json

/-- Arrays and objects may be nested this deep. -/
def nestingLimit : Nat := 127

def isBlank (c : Char) : Bool :=
  c = ' ' || c = '\t' || c = '\n' || c = '\r'

def skipBlank (cs : List Char) : List Char :=
  cs.dropWhile isBlank

def hexValue? (c : Char) : Option Nat :=
  if '0' ≤ c ∧ c ≤ '9' then some (c.toNat - '0'.toNat)
  else if 'a' ≤ c ∧ c ≤ 'f' then some (c.toNat - 'a'.toNat + 10)
  else if 'A' ≤ c ∧ c ≤ 'F' then some (c.toNat - 'A'.toNat + 10)
  else none

def hexUnit? (a b c d : Char) : Option Nat := do
  return (((← hexValue? a) * 16 + (← hexValue? b)) * 16 + (← hexValue? c)) * 16 + (← hexValue? d)

/-- The character that an escape letter stands for. -/
def escaped? : Char → Option Char
  | '"' => some '"'
  | '\\' => some '\\'
  | '/' => some '/'
  | 'b' => some '\x08'
  | 'f' => some '\x0c'
  | 'n' => some '\n'
  | 'r' => some '\r'
  | 't' => some '\t'
  | _ => none

/-- The characters up to the closing quote. A code above `FFFF` is written as a pair of units, and half
a pair is refused. -/
def readText : List Char → Option (List Char × List Char)
  | [] => none
  | '"' :: rest => some ([], rest)
  | '\\' :: 'u' :: a :: b :: c :: d :: rest => do
    let unit ← hexUnit? a b c d
    if 0xDC00 ≤ unit ∧ unit < 0xE000 then none
    else if 0xD800 ≤ unit ∧ unit < 0xDC00 then
      match rest with
      | '\\' :: 'u' :: a :: b :: c :: d :: rest => do
        let low ← hexUnit? a b c d
        if 0xDC00 ≤ low ∧ low < 0xE000 then
          let (text, rest) ← readText rest
          return (Char.ofNat (0x10000 + (unit - 0xD800) * 0x400 + (low - 0xDC00)) :: text, rest)
        else none
      | _ => none
    else
      let (text, rest) ← readText rest
      return (Char.ofNat unit :: text, rest)
  | '\\' :: e :: rest => do
    let c ← escaped? e
    let (text, rest) ← readText rest
    return (c :: text, rest)
  | c :: rest =>
    if c.toNat < 0x20 ∨ c = '\\' then none
    else do
      let (text, rest) ← readText rest
      return (c :: text, rest)

def readScalar : List Char → Option (Json × List Char)
  | 'n' :: 'u' :: 'l' :: 'l' :: rest => some (.null, rest)
  | 't' :: 'r' :: 'u' :: 'e' :: rest => some (.bool true, rest)
  | 'f' :: 'a' :: 'l' :: 's' :: 'e' :: rest => some (.bool false, rest)
  | '"' :: rest => do
    let (text, rest) ← readText rest
    return (.str (String.ofList text), rest)
  | cs => do
    let (numeral, rest) ← readNumeral cs
    return (← numeral.value?, rest)

/-- The items up to the closing bracket; there is at least one. `steps` bounds their number. -/
def readItems (item : List Char → Option (Json × List Char)) :
    (steps : Nat) → List Char → Option (List Json × List Char)
  | 0, _ => none
  | steps + 1, cs => do
    let (value, rest) ← item cs
    match skipBlank rest with
    | ']' :: rest => some ([value], rest)
    | ',' :: rest =>
      let (values, rest) ← readItems item steps rest
      return (value :: values, rest)
    | _ => none

/-- A key with the colon behind it. -/
def readKey (cs : List Char) : Option (String × List Char) :=
  match skipBlank cs with
  | '"' :: rest => do
    let (key, rest) ← readText rest
    match skipBlank rest with
    | ':' :: rest => some (String.ofList key, rest)
    | _ => none
  | _ => none

/-- The fields up to the closing brace; there is at least one. `steps` bounds their number. -/
def readFields (item : List Char → Option (Json × List Char)) :
    (steps : Nat) → List Char → Option (List (String × Json) × List Char)
  | 0, _ => none
  | steps + 1, cs => do
    let (key, rest) ← readKey cs
    let (value, rest) ← item rest
    match skipBlank rest with
    | '\x7d' :: rest => some ([(key, value)], rest)
    | ',' :: rest =>
      let (fields, rest) ← readFields item steps rest
      return ((key, value) :: fields, rest)
    | _ => none

def readArray (item : List Char → Option (Json × List Char)) (cs : List Char) :
    Option (Json × List Char) :=
  match skipBlank cs with
  | ']' :: rest => some (.arr [], rest)
  | _ => do
    let (items, rest) ← readItems item cs.length cs
    return (.arr items, rest)

def readObject (item : List Char → Option (Json × List Char)) (cs : List Char) :
    Option (Json × List Char) :=
  match skipBlank cs with
  | '\x7d' :: rest => some (.obj [], rest)
  | _ => do
    let (fields, rest) ← readFields item cs.length cs
    return (ofFields fields, rest)

/-- One value, with at most `levels` arrays and objects around each other. -/
def readValue : (levels : Nat) → List Char → Option (Json × List Char)
  | 0, cs => readScalar (skipBlank cs)
  | levels + 1, cs =>
    match skipBlank cs with
    | '[' :: rest => readArray (readValue levels) rest
    | '\x7b' :: rest => readObject (readValue levels) rest
    | cs => readScalar cs

/-- The value that a whole text holds. -/
def parse? (text : String) : Option Json := do
  let (value, rest) ← readValue nestingLimit text.toList
  if (skipBlank rest).isEmpty then some value else none

end Foldergram.Json
