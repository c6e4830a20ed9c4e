import Foldergram.Source.Basic

/-! Leaving files out of a graph. -/

namespace Foldergram.SourceGraph

/-- The ids of the files that are left out. -/
def excludedIds (g : SourceGraph) (excluded : String → Bool) : List String :=
  (g.files.filter (excluded ·.id)).map (·.id)

/-- Drops the files whose ids are excluded and the dependencies that touch one of them. An end that names
no file does not drop its dependency. -/
def exclude (g : SourceGraph) (excluded : String → Bool) : SourceGraph :=
  let gone := g.excludedIds excluded
  { files := g.files.filter (!gone.contains ·.id)
    dependencies := g.dependencies.filter fun d => !gone.contains d.source && !gone.contains d.target }

/-- How many files `exclude` drops. -/
def excludedCount (g : SourceGraph) (excluded : String → Bool) : Nat :=
  g.files.length - (g.exclude excluded).files.length

end Foldergram.SourceGraph
