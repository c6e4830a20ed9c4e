/-! The forms of a report. -/

namespace Foldergram

inductive ReportFormat where
  | compact
  | table
  | json
  deriving DecidableEq, Repr

namespace Report

def lines (ls : List String) : String :=
  String.join (ls.map (· ++ "\n"))

/-- A heading is bold on a terminal. -/
def heading (terminal : Bool) (line : String) : String :=
  if terminal then "\x1b[1m" ++ line ++ "\x1b[0m" else line

end Report

end Foldergram
