import Foldergram.Command.Workspace
import Foldergram.Session

/-! How a run of the program fails. -/

namespace Foldergram.Command

inductive Failure where
  | graphUnread (path : String) (fault : FileFault)
  | inputUnread (fault : FileFault)
  | graphRefused (path : String) (error : GraphError)
  | cannotExpand (id : String) (error : GraphError)
  | cannotCollapse (id : String) (error : GraphError)
  | drawingUnwritten (path : String) (fault : FileFault)

namespace Failure

def context : Failure → String
  | .graphUnread path _ => s!"failed to read {path}"
  | .inputUnread _ => "failed to read graph from stdin"
  | .graphRefused path _ => s!"failed to load graph from {path}"
  | .cannotExpand id _ => s!"cannot expand `{id}`"
  | .cannotCollapse id _ => s!"cannot collapse `{id}`"
  | .drawingUnwritten path _ => s!"failed to write {path}"

def cause : Failure → String
  | .graphUnread _ fault | .inputUnread fault | .drawingUnwritten _ fault => fault.message
  | .graphRefused _ error | .cannotExpand _ error | .cannotCollapse _ error => error.message

/-- Every line of the cause is indented. -/
def report (f : Failure) : String :=
  "Error: " ++ f.context ++ "\n\nCaused by:\n    " ++ Text.replaceChar '\n' "\n    " f.cause ++ "\n"

end Failure

end Foldergram.Command
