import Foldergram.Text.Lowercase
import Foldergram.Tree.Basic

/-! The order in which items are shown: folders before files, each kind by name without regard to case. -/

namespace Foldergram

/-- Names that differ only by case are told apart by their characters. -/
def compareNames (a b : String) : Ordering :=
  (compare (Text.lowercase a) (Text.lowercase b)).then (compare a b)

namespace Item

def compareDisplay (a b : Item) : Ordering :=
  match a.isFolder, b.isFolder with
  | true, false => .lt
  | false, true => .gt
  | _, _ => compareNames a.name b.name

def displayOrder (items : List Item) : List Item :=
  items.mergeSort fun a b => (compareDisplay a b).isLE

mutual

/-- The item with all siblings inside it in display order. -/
def display : Item → Item
  | .file name source => .file name source
  | .folder id name contents => .folder id name (displayOrder (displayOf contents))

def displayOf : List Item → List Item
  | [] => []
  | item :: items => item.display :: displayOf items

end

end Item

end Foldergram
