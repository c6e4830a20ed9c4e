/-! Columns of a table. Padding counts characters, while the width of a column is measured in bytes. -/

namespace Foldergram.Text

def padRight (width : Nat) (s : String) : String :=
  s ++ String.ofList (List.replicate (width - s.length) ' ')

def padLeft (width : Nat) (s : String) : String :=
  String.ofList (List.replicate (width - s.length) ' ') ++ s

def rule (width : Nat) : String :=
  String.ofList (List.replicate width '-')

/-- The width of a column: the longest entry in bytes, but not below `least`. -/
def columnWidth (least : Nat) (entries : List String) : Nat :=
  (entries.map (·.utf8ByteSize)).foldl max least

end Foldergram.Text
