/-! Readers of text: a reader takes characters from the front of what is left, or fails. -/

namespace Foldergram.Text

abbrev Reader := StateT (List Char) Option

namespace Reader

variable {α : Type}

def fail : Reader α :=
  fun _ => none

/-- The next character, which stays. -/
def peek : Reader (Option Char) :=
  fun cs => some (cs.head?, cs)

def satisfy (p : Char → Bool) : Reader Char
  | [] => none
  | c :: cs => if p c then some (c, cs) else none

def char (c : Char) : Reader Unit := do
  let _ ← satisfy (· = c)

def takeWhile (p : Char → Bool) : Reader (List Char) :=
  fun cs => some (cs.takeWhile p, cs.dropWhile p)

/-- At least one character. -/
def takeWhile1 (p : Char → Bool) : Reader (List Char) := do
  let taken ← takeWhile p
  if taken.isEmpty then fail else return taken

/-- Takes `word` if it stands in front, and tells whether it did. -/
def optional (word : String) : Reader Bool :=
  fun cs =>
    let w := word.toList
    some (if w.isPrefixOf cs then (true, cs.drop w.length) else (false, cs))

def word (w : String) : Reader Unit := do
  if ← optional w then return else fail

def atEnd : Reader Bool :=
  fun cs => some (cs.isEmpty, cs)

def manyUpTo (item : Reader α) : (steps : Nat) → List Char → List α × List Char
  | 0, cs => ([], cs)
  | steps + 1, cs =>
    match item cs with
    | none => ([], cs)
    | some (value, rest) =>
      let (values, rest) := manyUpTo item steps rest
      (value :: values, rest)

/-- As many items as can be read, each at least one character long. -/
def many (item : Reader α) : Reader (List α) :=
  fun cs => some (manyUpTo item cs.length cs)

/-- Reads from a whole text, of which nothing may be left. -/
def run? (r : Reader α) (text : String) : Option α :=
  match r text.toList with
  | some (value, []) => some value
  | _ => none

end Reader

end Foldergram.Text
