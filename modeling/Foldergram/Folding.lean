import Foldergram.Tree.Basic
import Std.Data.ExtTreeMap

/-! Which folders are open. A folder without an entry is open; entries are listed in the order of ids. -/

namespace Foldergram

/-- Flags by folder id: `true` is open. -/
structure Folding where
  flags : Std.ExtTreeMap String Bool := {}

namespace Folding

def empty : Folding := {}

def get? (f : Folding) (id : String) : Option Bool :=
  f.flags[id]?

/-- Only an explicit entry closes a folder. -/
def isCollapsed (f : Folding) (id : String) : Bool :=
  f.get? id == some false

def isExpanded (f : Folding) (id : String) : Bool :=
  !f.isCollapsed id

def set (f : Folding) (id : String) (expanded : Bool) : Folding :=
  ⟨f.flags.insert id expanded⟩

def entries (f : Folding) : List (String × Bool) :=
  f.flags.toList

def ofEntries (entries : List (String × Bool)) : Folding :=
  entries.foldl (fun f (id, expanded) => f.set id expanded) empty

def size (f : Folding) : Nat :=
  f.flags.size

/-- How many levels are open at first: the root alone. -/
def standardDepth : Nat := 1

/-- An entry for every folder, open above the given depth. -/
def openTo (t : FolderTree) (depth : Nat) : Folding :=
  ofEntries (t.folders.map fun (folder, d) => (folder.id, decide (d < depth)))

/-- Every entry open. -/
def openAll (f : Folding) : Folding :=
  f.entries.foldl (fun f (id, _) => f.set id true) f

end Folding

end Foldergram
