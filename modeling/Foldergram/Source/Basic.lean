/-! A dependency graph as it is delivered: files named by slash paths, and dependencies between them. -/

namespace Foldergram

structure SourceFile where
  /-- Path of the file, its segments divided by slashes. -/
  id : String
  label : String := ""
  dependencyCount : Nat := 0
  deriving DecidableEq, Repr

/-- The file `source` depends on `target`. Repeats and self-references are kept. -/
structure Dependency where
  source : String
  target : String
  deriving DecidableEq, Repr

structure SourceGraph where
  files : List SourceFile := []
  dependencies : List Dependency := []
  deriving DecidableEq, Repr

end Foldergram
