/-! TOML values, and the tables that a document fills. -/

namespace Foldergram.Toml

/-- How a table came to be: by its own header, on the way to another one, by a dotted key, or as a value
between braces. -/
inductive Origin where
  | header
  | passage
  | dotted
  | inline
  deriving DecidableEq, Repr

/-- Floats and moments are kept as they are written. -/
inductive Value where
  | string (s : String)
  | integer (n : Int)
  | float (text : String)
  | boolean (b : Bool)
  | moment (text : String)
  | array (items : List Value)
  | table (origin : Origin) (entries : List (String × Value))
  | tables (items : List (List (String × Value)))

abbrev Entries := List (String × Value)

def Entries.set (entries : Entries) (key : String) (value : Value) : Entries :=
  entries.map fun (k, v) => if k = key then (k, value) else (k, v)

/-- Changes the table at the end of `path` and opens the tables on the way. A path goes through the last
of several tables, never through another value, and a dotted path not through a table with a header. -/
def Entries.update (dotted : Bool) (change : Origin → Entries → Option Entries) :
    Origin → Entries → (path : List String) → Option Entries
  | origin, entries, [] => change origin entries
  | _, entries, key :: path =>
    match entries.lookup key with
    | none => do
      let origin := if dotted then .dotted else .passage
      let inner ← update dotted change origin [] path
      return entries ++ [(key, .table origin inner)]
    | some (.table origin inner) =>
      if origin = .inline ∨ dotted ∧ origin = .header then none
      else do
        return entries.set key (.table origin (← update dotted change origin inner path))
    | some (.tables items) =>
      match items.getLast? with
      | none => none
      | some last => do
        return entries.set key (.tables (items.dropLast ++ [← update dotted change .header last path]))
    | some _ => none

/-- Adds an entry under a dotted key. A key is set once. -/
def Entries.assign (entries : Entries) (path : List String) (key : String) (value : Value) :
    Option Entries :=
  let add (origin : Origin) (entries : Entries) : Option Entries :=
    if path ≠ [] ∧ origin ≠ .dotted then none
    else if (entries.lookup key).isSome then none
    else some (entries ++ [(key, value)])
  entries.update true add .header path

/-- Opens the table of a header; a table has one header. -/
def Entries.openTable (entries : Entries) (path : List String) (key : String) : Option Entries :=
  let opened (_ : Origin) (entries : Entries) : Option Entries :=
    match entries.lookup key with
    | none => some (entries ++ [(key, .table .header [])])
    | some (.table .passage inner) => some (entries.set key (.table .header inner))
    | some _ => none
  entries.update false opened .header path

/-- Opens one more table of a list of tables. -/
def Entries.openNext (entries : Entries) (path : List String) (key : String) : Option Entries :=
  let opened (_ : Origin) (entries : Entries) : Option Entries :=
    match entries.lookup key with
    | none => some (entries ++ [(key, .tables [[]])])
    | some (.tables items) => some (entries.set key (.tables (items ++ [[]])))
    | some _ => none
  entries.update false opened .header path

end Foldergram.Toml
