/-!
Glob patterns on ids. A star matches any text, slashes included; a double star must be a whole path
component and matches any number of leading folders, or all that is left.
-/

namespace Foldergram.Glob

/-- A member of a bracketed class: a single character is a range of one. -/
structure CharRange where
  first : Char
  last : Char
  deriving DecidableEq, Repr

def CharRange.has (r : CharRange) (c : Char) : Bool :=
  r.first ≤ c && c ≤ r.last

inductive Token where
  | char (c : Char)
  | anyChar
  | within (ranges : List CharRange)
  | outside (ranges : List CharRange)
  | star
  | folders
  deriving DecidableEq, Repr

structure Pattern where
  text : String
  tokens : List Token
  deriving DecidableEq, Repr

inductive FaultKind where
  | wildcards
  | recursive
  | range
  deriving DecidableEq, Repr

/-- What is wrong with a pattern, and at which character. -/
structure Fault where
  position : Nat
  kind : FaultKind
  deriving DecidableEq, Repr

def FaultKind.message : FaultKind → String
  | .wildcards => "wildcards are either regular `*` or recursive `**`"
  | .recursive => "recursive wildcards must form a single path component"
  | .range => "invalid range pattern"

def Fault.message (f : Fault) : String :=
  s!"Pattern syntax error near position {f.position}: " ++ f.kind.message

/-- The members of a class: three characters with a dash in the middle are a range. -/
def classRanges : List Char → List CharRange
  | first :: '-' :: last :: rest => ⟨first, last⟩ :: classRanges rest
  | c :: rest => ⟨c, c⟩ :: classRanges rest
  | [] => []

/-- The text of a class up to its closing bracket, which may not come first, and the rest. -/
def classText : List Char → Option (List Char × List Char)
  | [] => none
  | first :: rest =>
    match rest.dropWhile (· != ']') with
    | [] => none
    | _ :: after => some (first :: rest.takeWhile (· != ']'), after)

/-- The class after an opening bracket. -/
def readClass : List Char → Option (Token × List Char)
  | '!' :: cs => (classText cs).map fun (text, rest) => (.outside (classRanges text), rest)
  | cs => (classText cs).map fun (text, rest) => (.within (classRanges text), rest)

/-- What a run of stars means; `position` is where the run starts and `before` the character before it. -/
def readStars (position : Nat) (before : Option Char) (run : Nat) (rest : List Char) :
    Except Fault (Token × List Char) :=
  if run = 1 then .ok (.star, rest)
  else if 2 < run then .error ⟨position + 2, .wildcards⟩
  else if before ≠ none ∧ before ≠ some '/' then .error ⟨position - 1, .recursive⟩
  else
    match rest with
    | [] => .ok (.folders, [])
    | '/' :: rest => .ok (.folders, rest)
    | _ => .error ⟨position + 2, .recursive⟩

/-- Reads the tokens from `position` on. `steps` bounds the number of tokens. -/
def readTokens : (steps : Nat) → (position : Nat) → (before : Option Char) → List Char →
    Except Fault (List Token)
  | 0, _, _, _ => .ok []
  | _ + 1, _, _, [] => .ok []
  | steps + 1, position, before, c :: cs =>
    let continueWith (token : Token) (rest : List Char) : Except Fault (List Token) := do
      let used := (c :: cs).length - rest.length
      let last := ((c :: cs).take used).getLast?
      return token :: (← readTokens steps (position + used) last rest)
    if c = '?' then continueWith .anyChar cs
    else if c = '*' then do
      let run := (cs.takeWhile (· == '*')).length + 1
      let (token, rest) ← readStars position before run (cs.dropWhile (· == '*'))
      continueWith token rest
    else if c = '[' then
      match readClass cs with
      | some (token, rest) => continueWith token rest
      | none => .error ⟨position, .range⟩
    else continueWith (.char c) cs

def Pattern.ofText (text : String) : Except Fault Pattern := do
  return ⟨text, ← readTokens text.toList.length 0 none text.toList⟩

/-- Whether a token that stands for one character accepts it. -/
def Token.has (c : Char) : Token → Bool
  | .char d => c == d
  | .anyChar => true
  | .within ranges => ranges.any (·.has c)
  | .outside ranges => !ranges.any (·.has c)
  | .star | .folders => false

/-!
Matching keeps, for every suffix of the text from the whole to the empty one, whether the tokens
read so far from the right match it.
-/

/-- Some suffix from here on is matched. -/
def anySuffix : List Char → List Bool → List Bool
  | _ :: cs, hit :: hits =>
    let later := anySuffix cs hits
    (hit || later.headD false) :: later
  | _, hits => hits

/-- Some suffix that starts right after a slash further on is matched. -/
def anyFolder : List Char → List Bool → List Bool
  | c :: cs, _ :: hits =>
    let later := anyFolder cs hits
    ((c == '/' && hits.headD false) || later.headD false) :: later
  | _, _ => [false]

/-- One character is taken by `token`, and what follows is matched. -/
def oneChar (token : Token) : List Char → List Bool → List Bool
  | c :: cs, _ :: hits => (token.has c && hits.headD false) :: oneChar token cs hits
  | _, _ => [false]

def Token.extend (token : Token) (text : List Char) (hits : List Bool) : List Bool :=
  match token with
  | .star => anySuffix text hits
  | .folders =>
    let all := hits.getLastD false
    (hits.zip (anyFolder text hits)).map fun (here, further) => here || further || all
  | token => oneChar token text hits

def Pattern.accepts (p : Pattern) (id : String) : Bool :=
  let text := id.toList
  let atEnd := List.replicate text.length false ++ [true]
  (p.tokens.foldr (fun token hits => token.extend text hits) atEnd).headD false

end Foldergram.Glob
