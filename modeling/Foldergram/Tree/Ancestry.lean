import Foldergram.Tree.Basic

/-! Which folder holds which item, read upwards. -/

namespace Foldergram

/-- An item and the folder that holds it, by their ids. -/
structure Link where
  item : String
  folder : String
  deriving DecidableEq, Repr

namespace Item

mutual

/-- The links inside an item, those of a folder before those of what it holds. -/
def links : Item → List Link
  | .file _ _ => []
  | .folder id _ contents => linksOf id contents

def linksOf (folder : String) : List Item → List Link
  | [] => []
  | item :: items => ⟨item.id, folder⟩ :: (item.links ++ linksOf folder items)

end

end Item

/-- The folders around `id`, innermost first. In `links` the link of an item stands before the link of
the folder that holds it. -/
def climb : List Link → String → List String
  | [], _ => []
  | link :: links, id =>
    if link.item = id then link.folder :: climb links link.folder else climb links id

namespace FolderTree

/-- All links, an item before the folder that holds it. -/
def upwardLinks (t : FolderTree) : List Link :=
  t.root.links.reverse

def parent? (t : FolderTree) (id : String) : Option String :=
  (t.upwardLinks.find? (·.item = id)).map (·.folder)

def ancestors (t : FolderTree) (id : String) : List String :=
  climb t.upwardLinks id

end FolderTree

end Foldergram
