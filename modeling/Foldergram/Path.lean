/-! Ids as slash paths. Segments are taken as they stand, empty ones included. -/

namespace Foldergram.Path

/-- Cuts a text at every slash; there is always a first segment. -/
def cut : List Char → List (List Char)
  | [] => [[]]
  | c :: cs =>
    match cut cs with
    | [] => [[c]]
    | first :: rest => if c = '/' then [] :: first :: rest else (c :: first) :: rest

def segments (id : String) : List String :=
  (cut id.toList).map String.ofList

/-- The id of `name` in a folder, or at the top. -/
def child (folder : Option String) (name : String) : String :=
  match folder with
  | none => name
  | some id => id ++ "/" ++ name

end Foldergram.Path
