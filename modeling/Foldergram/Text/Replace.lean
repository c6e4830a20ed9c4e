/-! Replacing a character by a text. -/

namespace Foldergram.Text

/-- Writes `text` for every `c`. -/
def replaceChar (c : Char) (text : String) (s : String) : String :=
  String.ofList (s.toList.flatMap fun d => if d = c then text.toList else [d])

end Foldergram.Text
