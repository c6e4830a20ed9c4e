import Foldergram.Path

/-! File names: segments divided by slashes, some of which are steps into a directory. -/

namespace Foldergram.Command

/-- Empty segments are no steps, nor are dots other than one in front. -/
def isStep (segment : String) (first : Bool) : Bool :=
  segment != "" && (first || segment != ".")

/-- How many segments there are up to the last step. -/
def stepsEnd (segments : List String) : Nat :=
  segments.zipIdx.foldl (fun n (segment, i) => if isStep segment (i = 0) then i + 1 else n) 0

/-- The directory that a file name stands in; the working directory is a dot. -/
def directoryOf (name : String) : String :=
  let segments := Path.segments name
  let above := segments.take (stepsEnd segments - 1)
  let dir := "/".intercalate (above.take (stepsEnd above))
  if dir != "" then dir
  else if segments.head? = some "" && 0 < stepsEnd segments then "/"
  else "."

/-- A name in a directory. -/
def inDirectory (dir name : String) : String :=
  if dir.toList.getLast? = some '/' then dir ++ name else dir ++ "/" ++ name

end Foldergram.Command
