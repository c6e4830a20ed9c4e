import Foldergram.Toml.Scalar

/-! Reading TOML documents. -/

namespace Foldergram.Toml

open Text Text.Reader

/-- Arrays and inline tables may be nested, and keys dotted, less deep than this. -/
def depthLimit : Nat := 80

def comment : Reader Unit := do
  char '#'
  let _ ← takeWhile isLineChar

def lineEnd : Reader Unit := do
  if ← atEnd then return else newline

/-- What may follow a value or a header on its line. -/
def lineRest : Reader Unit := do
  blanks
  comment <|> pure ()
  lineEnd

/-- What may stand between the items of an array. -/
def arraySpace : Reader Unit := do
  let _ ← many ((do let _ ← takeWhile1 isBlank) <|> newline <|> comment)

def isBareChar (c : Char) : Bool :=
  c.isAlphanum || c = '_' || c = '-'

def keySegment : Reader String := do
  blanks
  let key ← basicString <|> literalString <|> (do return String.ofList (← takeWhile1 isBareChar))
  blanks
  return key

/-- A dotted key: the path to a table, and the key in it. -/
def dottedKey : Reader (List String × String) := do
  let first ← keySegment
  let rest ← many (do char '.'; keySegment)
  let keys := first :: rest
  if depthLimit ≤ keys.length then fail else return (keys.dropLast, keys.getLast?.getD first)

/-- An array after its opening bracket. The last item may have a comma behind it. -/
def array (value : Reader Value) : Reader Value := do
  let item : Reader Value := do
    arraySpace
    let v ← value
    arraySpace
    return v
  let items ← (do
    let first ← item
    let rest ← many (do char ','; item)
    let _ ← optional ","
    return first :: rest) <|> pure []
  arraySpace
  char ']'
  return .array items

/-- An entry of an inline table: the path, the key and the value. -/
def inlineEntry (value : Reader Value) : Reader (List String × String × Value) := do
  let (path, key) ← dottedKey
  char '='
  blanks
  let v ← value
  blanks
  return (path, key, v)

/-- An inline table after its opening brace. -/
def inlineTable (value : Reader Value) : Reader Value := do
  let entries ← (do
    let first ← inlineEntry value
    let rest ← many (do char ','; inlineEntry value)
    return first :: rest) <|> pure []
  blanks
  char '\x7d'
  match entries.foldlM (fun table (path, key, v) => Entries.assign table path key v) ([] : Entries) with
  | some table => return .table .inline table
  | none => fail

def scalar : Reader Value :=
  (do return .string (← string)) <|> (do return .boolean (← boolean)) <|>
    (do return .moment (← moment)) <|> (do return .float (← float)) <|> (do return .integer (← integer))

/-- A value with at most `levels` arrays and inline tables around each other. -/
def value : (levels : Nat) → Reader Value
  | 0 => scalar
  | levels + 1 => do
    if ← optional "[" then array (value levels)
    else if ← optional "\x7b" then inlineTable (value levels)
    else scalar

/-- A document so far, and the path of the table that its next lines fill. -/
structure Draft where
  entries : Entries := []
  current : List String := []

def Draft.assign (d : Draft) (path : List String) (key : String) (v : Value) : Option Draft := do
  let entries ← d.entries.update false (fun _ table => Entries.assign table path key v) .header d.current
  return { d with entries := entries }

def header (d : Draft) : Reader Draft := do
  let next ← optional "[["
  if !next then char '['
  let (path, key) ← dottedKey
  word (if next then "]]" else "]")
  lineRest
  match if next then d.entries.openNext path key else d.entries.openTable path key with
  | some entries => return ⟨entries, path ++ [key]⟩
  | none => fail

def entry (d : Draft) : Reader Draft := do
  let (path, key) ← dottedKey
  char '='
  blanks
  let v ← value (depthLimit - 1)
  lineRest
  match d.assign path key v with
  | some d => return d
  | none => fail

def line (d : Draft) : Reader Draft := do
  match ← peek with
  | some '#' => comment; lineEnd; return d
  | some '[' => header d
  | some '\n' | some '\r' => newline; return d
  | _ => entry d

/-- All lines from here on; every line has a character. -/
def lines (d : Draft) : (steps : Nat) → Reader Draft
  | 0 => do
    blanks
    if ← atEnd then return d else fail
  | steps + 1 => do
    blanks
    if ← atEnd then return d
    lines (← line d) steps

/-- The entries of a document. A byte order mark in front is passed over. -/
def parse? (text : String) : Option Entries :=
  let document : Reader Draft := do
    let _ ← optional "\ufeff"
    lines {} text.length
  (document.run? text).map (·.entries)

end Foldergram.Toml
