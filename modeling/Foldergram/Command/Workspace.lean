import Foldergram.Command.FileName

/-! A working directory of files, held in memory. -/

namespace Foldergram.Command

inductive FileFault where
  | notFound
  | notDirectory
  | isDirectory
  | notText
  | other (message : String)
  deriving DecidableEq, Repr

def FileFault.message : FileFault → String
  | .notFound => "No such file or directory (os error 2)"
  | .notDirectory => "Not a directory (os error 20)"
  | .isDirectory => "Is a directory (os error 21)"
  | .notText => "stream did not contain valid UTF-8"
  | .other message => message

/-- Files by the segments of their names. The directories are those that hold a file. -/
structure Workspace where
  files : List (List String × ByteArray) := []

/-- A place in the working directory, or in the directories `above` it, whose contents are not known. -/
structure Place where
  above : Nat := 0
  path : List String := []

namespace Workspace

def ofFiles (files : List (String × ByteArray)) : Workspace :=
  ⟨files.map fun (name, content) => (Path.segments name, content)⟩

def file? (w : Workspace) (p : Place) : Option ByteArray :=
  if p.above = 0 then w.files.lookup p.path else none

def isDirectory (w : Workspace) (p : Place) : Bool :=
  if p.above = 0 then p.path.isEmpty || w.files.any fun (path, _) => p.path.isPrefixOf path && path != p.path
  else p.path.isEmpty

/-- One step from a place: it has to be a directory. -/
def step (w : Workspace) (p : Place) (segment : String) : Except FileFault Place :=
  if (w.file? p).isSome then .error .notDirectory
  else if !w.isDirectory p then .error .notFound
  else if segment = "" ∨ segment = "." then .ok p
  else if segment = ".." then
    if p.path.isEmpty then .ok ⟨p.above + 1, []⟩ else .ok { p with path := p.path.dropLast }
  else .ok { p with path := p.path ++ [segment] }

/-- Where a name leads. A name that starts with a slash leads out of the working directory. -/
def walk (w : Workspace) (segments : List String) : Except FileFault Place :=
  let start : Place := if segments.head? = some "" then ⟨1, []⟩ else {}
  segments.foldlM w.step start

def read (w : Workspace) (name : String) : Except FileFault ByteArray := do
  let p ← w.walk (Path.segments name)
  match w.file? p with
  | some content => .ok content
  | none => .error (if w.isDirectory p then .isDirectory else .notFound)

/-- Sets the content of a file, or adds it. -/
def put (w : Workspace) (path : List String) (content : ByteArray) : Workspace :=
  if (w.files.lookup path).isSome then
    ⟨w.files.map fun (p, old) => (p, if p = path then content else old)⟩
  else ⟨w.files ++ [(path, content)]⟩

/-- Writes a file in a directory that is there. A name that ends in a slash or a dot is a directory's. -/
def write (w : Workspace) (name : String) (content : ByteArray) : Except FileFault Workspace := do
  let segments := Path.segments name
  let shown := (segments.reverse.dropWhile (· = "")).reverse
  let p ← w.walk shown.dropLast
  if (w.file? p).isSome then .error .notDirectory
  else if !w.isDirectory p then .error .notFound
  else
    match shown.getLast? with
    | none => .error .isDirectory
    | some last =>
      if last = "." ∨ last = ".." ∨ shown.length < segments.length then .error .isDirectory
      else if w.isDirectory { p with path := p.path ++ [last] } then .error .isDirectory
      else if p.above ≠ 0 then .error .notFound
      else .ok (w.put (p.path ++ [last]) content)

/-- The files that were added or changed since `old`. -/
def changes (w old : Workspace) : List (String × ByteArray) :=
  (w.files.filter fun (path, content) => (old.files.lookup path).all fun before => before.data != content.data).map
    fun (path, content) => ("/".intercalate path, content)

end Workspace

end Foldergram.Command
