import Foldergram.Folding
import Foldergram.Tree.Ancestry
import Foldergram.Tree.Display

/-! Which items are visible, and which visible item stands for a hidden one. -/

namespace Foldergram

namespace Item

mutual

/-- The visible part of an item, each item with the id of the folder around it. -/
def visible (f : Folding) (folder : Option String) : Item → List (Item × Option String)
  | .file name source => [(.file name source, folder)]
  | .folder id name contents =>
    (.folder id name contents, folder) ::
      if f.isExpanded id then visibleOf f (some id) contents else []

def visibleOf (f : Folding) (folder : Option String) : List Item → List (Item × Option String)
  | [] => []
  | item :: items => item.visible f folder ++ visibleOf f folder items

end

end Item

/-- The visible items in display order, a folder before its contents. -/
def FolderTree.visible (t : FolderTree) (f : Folding) : List (Item × Option String) :=
  t.root.display.visible f none

/-- The item that stands for `id` on screen: its outermost closed folder, or itself. -/
def visibleAncestor (links : List Link) (f : Folding) (id : String) : String :=
  (climb links id).foldl (fun shown folder => if f.isCollapsed folder then folder else shown) id

end Foldergram
