import Foldergram.Path
import Foldergram.Tree.Basic

/-!
Building a folder tree from files. A file opens the folders on its path that are not there yet; two
items may not share an id, and no path may run through a file or through the root's own id.
-/

namespace Foldergram

/-- The id that two items claim. -/
structure Collision where
  id : String
  deriving DecidableEq, Repr

/-- Siblings after an insertion, with the ids of the items it created. -/
structure Growth where
  items : List Item
  created : List String

/-- Grows the contents of the folder `id` among siblings, opening it behind them if it is not there. -/
def growFolder (id name : String) (grow : List Item → Except Collision Growth) :
    List Item → Except Collision Growth
  | [] => do
    let inner ← grow []
    return ⟨[.folder id name inner.items], id :: inner.created⟩
  | .folder id' name' contents :: items =>
    if id' = id then do
      let inner ← grow contents
      return ⟨.folder id' name' inner.items :: items, inner.created⟩
    else do
      let rest ← growFolder id name grow items
      return ⟨.folder id' name' contents :: rest.items, rest.created⟩
  | .file name' source :: items =>
    if source.id = id then .error ⟨id⟩
    else do
      let rest ← growFolder id name grow items
      return ⟨.file name' source :: rest.items, rest.created⟩

/-- Adds a file among the items of `folder`, along what is left of its path. -/
def growPath (source : SourceFile) (folder : Option String) :
    List String → List Item → Except Collision Growth
  | [], items => .ok ⟨items, []⟩
  | [name], items =>
    if source.id = rootId ∨ items.any (·.id = source.id) then .error ⟨source.id⟩
    else .ok ⟨items ++ [.file name source], [source.id]⟩
  | name :: rest, items =>
    let id := Path.child folder name
    if id = rootId then .error ⟨id⟩ else growFolder id name (growPath source (some id) rest) items

namespace FolderTree

def insert (t : FolderTree) (source : SourceFile) : Except Collision FolderTree := do
  let growth ← growPath source none (Path.segments source.id) t.contents
  return ⟨growth.items, t.created ++ growth.created⟩

def build (files : List SourceFile) : Except Collision FolderTree :=
  files.foldlM insert {}

end FolderTree

end Foldergram
