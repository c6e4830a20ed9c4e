import Foldergram.Source.Basic

/-!
Folder trees: files and folders under one root. Siblings are kept in the order of their discovery,
and the tree remembers the order in which its items were created.
-/

namespace Foldergram

def rootId : String := "root"
def rootName : String := "Project Root"

inductive Item where
  | file (name : String) (source : SourceFile)
  | folder (id name : String) (contents : List Item)

namespace Item

def id : Item → String
  | .file _ source => source.id
  | .folder id _ _ => id

def name : Item → String
  | .file name _ => name
  | .folder _ name _ => name

def isFolder : Item → Bool
  | .file _ _ => false
  | .folder _ _ _ => true

def contents : Item → List Item
  | .file _ _ => []
  | .folder _ _ contents => contents

/-- The text shown on an item: the label given for a file, or else its name. -/
def label : Item → String
  | .file name source => if source.label = "" then name else source.label
  | .folder _ name _ => name

def dependencyCount : Item → Nat
  | .file _ source => source.dependencyCount
  | .folder _ _ _ => 0

mutual

/-- The item and everything in it, an item before its contents. -/
def all : Item → List Item
  | .file name source => [.file name source]
  | .folder id name contents => .folder id name contents :: allOf contents

def allOf : List Item → List Item
  | [] => []
  | item :: items => item.all ++ allOf items

end

mutual

/-- The folders of an item that stands at `depth`, each with its own depth. -/
def folders (depth : Nat) : Item → List (Item × Nat)
  | .file _ _ => []
  | .folder id name contents => (.folder id name contents, depth) :: foldersOf (depth + 1) contents

def foldersOf (depth : Nat) : List Item → List (Item × Nat)
  | [] => []
  | item :: items => item.folders depth ++ foldersOf depth items

end

end Item

structure FolderTree where
  /-- What stands directly under the root. -/
  contents : List Item := []
  /-- The ids of all items, the root included, in the order of their creation. -/
  created : List String := [rootId]

namespace FolderTree

def root (t : FolderTree) : Item :=
  .folder rootId rootName t.contents

def items (t : FolderTree) : List Item :=
  t.root.all

def get? (t : FolderTree) (id : String) : Option Item :=
  t.items.find? (·.id = id)

def hasFolder (t : FolderTree) (id : String) : Bool :=
  (t.get? id).any Item.isFolder

/-- Folders with their depth below the root, a folder before those in it. -/
def folders (t : FolderTree) : List (Item × Nat) :=
  t.root.folders 0

/-- The number of folders, the root included. -/
def folderCount (t : FolderTree) : Nat :=
  t.items.countP Item.isFolder

def fileCount (t : FolderTree) : Nat :=
  t.items.countP (!Item.isFolder ·)

/-- The depth of the deepest item. -/
def maxDepth (t : FolderTree) : Nat :=
  (t.folders.map fun (folder, depth) => if folder.contents.isEmpty then depth else depth + 1).foldl max 0

end FolderTree

end Foldergram
