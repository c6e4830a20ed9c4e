import Foldergram.Diagram.Export
import Foldergram.Report.Format

/-!
The command line. Options come before or after the graph, long ones with their value behind an equal
sign or as the next word; words are taken from left to right, and the first that is out of place
makes the line unusable.
-/

namespace Foldergram.Command

inductive Verb where
  | layout
  | export
  | stats
  deriving DecidableEq, Repr

def Verb.word : Verb → String
  | .layout => "layout"
  | .export => "export"
  | .stats => "stats"

def Verb.ofWord? (word : String) : Option Verb :=
  [Verb.layout, .export, .stats].find? (·.word = word)

inductive Opt where
  | expand
  | collapse
  | expandAll
  | config
  | format
  | stdout
  | output
  | version
  deriving DecidableEq, Repr

def Opt.name : Opt → String
  | .expand => "expand"
  | .collapse => "collapse"
  | .expandAll => "expand-all"
  | .config => "config"
  | .format => "format"
  | .stdout => "stdout"
  | .output => "output"
  | .version => "version"

def Opt.takesValue : Opt → Bool
  | .expand | .collapse | .config | .format | .output => true
  | .expandAll | .stdout | .version => false

def Verb.options : Verb → List Opt
  | .layout | .stats => [.expand, .collapse, .expandAll, .config, .format, .version]
  | .export => [.expand, .collapse, .expandAll, .config, .format, .stdout, .output, .version]

def Verb.long? (verb : Verb) (name : String) : Option Opt :=
  verb.options.find? (·.name = name)

def Verb.short? (verb : Verb) (letter : Char) : Option Opt :=
  if letter = 'V' then some .version
  else if letter = 'o' ∧ verb = .export then some .output
  else none

/-- What to do with the graph, by the verb. -/
inductive Task where
  | layout (format : ReportFormat)
  | export (format : DrawingFormat) (toStdout : Bool) (output : Option String)
  | stats (format : ReportFormat)
  deriving DecidableEq, Repr

structure Invocation where
  /-- Path of the graph; a dash stands for the standard input. -/
  graph : String
  expand : List String
  collapse : List String
  expandAll : Bool
  config : Option String
  task : Task
  deriving DecidableEq, Repr

/-- The options read so far. -/
structure Draft where
  graph : Option String := none
  expand : List String := []
  collapse : List String := []
  expandAll : Bool := false
  config : Option String := none
  report : Option ReportFormat := none
  drawing : Option DrawingFormat := none
  stdout : Bool := false
  output : Option String := none

inductive Request where
  /-- Tell the version of the program, or of one of its verbs. -/
  | version (verb : Option Verb)
  | perform (invocation : Invocation)

def reportFormat? (word : String) : Option ReportFormat :=
  if word = "compact" then some .compact
  else if word = "table" then some .table
  else if word = "json" then some .json
  else none

def drawingFormat? (word : String) : Option DrawingFormat :=
  if word = "dot" then some .dot
  else if word = "mermaid" then some .mermaid
  else none

/-- Sets what may be set once. -/
def once {α : Type} (old : Option α) (value : Option α) : Option (Option α) :=
  match old, value with
  | none, some value => some (some value)
  | _, _ => none

/-- A path is not empty. -/
def path? (word : String) : Option String :=
  if word = "" then none else some word

namespace Draft

def setGraph (d : Draft) (word : String) : Option Draft := do
  return { d with graph := ← once d.graph (path? word) }

def setValue (d : Draft) (verb : Verb) (value : String) : Opt → Option Draft
  | .expand => some { d with expand := d.expand ++ [value] }
  | .collapse => some { d with collapse := d.collapse ++ [value] }
  | .config => do return { d with config := ← once d.config (path? value) }
  | .output => do return { d with output := ← once d.output (path? value) }
  | .format =>
    match verb with
    | .export => do return { d with drawing := ← once d.drawing (drawingFormat? value) }
    | .layout | .stats => do return { d with report := ← once d.report (reportFormat? value) }
  | _ => none

def setFlag (d : Draft) : Opt → Option Draft
  | .expandAll => if d.expandAll then none else some { d with expandAll := true }
  | .stdout => if d.stdout then none else some { d with stdout := true }
  | _ => none

def finish (d : Draft) (verb : Verb) : Option Request := do
  let task : Task := match verb with
    | .layout => .layout (d.report.getD .compact)
    | .export => .export (d.drawing.getD .dot) d.stdout d.output
    | .stats => .stats (d.report.getD .compact)
  return .perform ⟨← d.graph, d.expand, d.collapse, d.expandAll, d.config, task⟩

end Draft

/-- A word that cannot be the value of the option before it. -/
def isOptionLike (word : String) : Bool :=
  word.toList.head? = some '-' && word != "-"

/-- What a word is by its form: a long option with the value behind its equal sign, letters behind a
single dash, the mark that ends the options, or a plain word. -/
inductive Form where
  | long (name : String) (value : Option String)
  | short (letters : List Char)
  | mark
  | plain

def formOf (word : String) : Form :=
  match word.toList with
  | ['-', '-'] => .mark
  | '-' :: '-' :: cs =>
    let name := String.ofList (cs.takeWhile (· != '='))
    match cs.dropWhile (· != '=') with
    | [] => .long name none
    | _ :: value => .long name (some (String.ofList value))
  | '-' :: c :: cs => .short (c :: cs)
  | _ => .plain

/-- What the letters behind one dash set: the first that takes a value takes the other letters. -/
inductive Letters where
  | version
  | value (opt : Opt) (value : String)
  | next (opt : Opt)

def lettersOf? (verb : Verb) : List Char → Option Letters
  | [] => none
  | letter :: rest =>
    match verb.short? letter with
    | none => none
    | some .version => some .version
    | some opt =>
      match rest with
      | [] => some (.next opt)
      | '=' :: value => some (.value opt (String.ofList value))
      | value => some (.value opt (String.ofList value))

def readPlain (verb : Verb) (d : Draft) : List String → Option Request
  | [] => d.finish verb
  | word :: words => do readPlain verb (← d.setGraph word) words

/-- Reads the words after the verb. -/
def readWords (verb : Verb) (d : Draft) : List String → Option Request
  | [] => d.finish verb
  | word :: words =>
    match formOf word with
    | .mark => readPlain verb d words
    | .plain => do readWords verb (← d.setGraph word) words
    | .long name attached => do
      let opt ← verb.long? name
      match opt.takesValue, attached with
      | false, some _ => none
      | false, none =>
        if opt = .version then return .version (some verb)
        else readWords verb (← d.setFlag opt) words
      | true, some value => readWords verb (← d.setValue verb value opt) words
      | true, none =>
        match words with
        | [] => none
        | value :: words =>
          if isOptionLike value then none else readWords verb (← d.setValue verb value opt) words
    | .short letters => do
      match ← lettersOf? verb letters with
      | .version => return .version (some verb)
      | .value opt value => readWords verb (← d.setValue verb value opt) words
      | .next opt =>
        match words with
        | [] => none
        | value :: words =>
          if isOptionLike value then none else readWords verb (← d.setValue verb value opt) words

/-- Reads a whole line; `none` is a line that cannot be used. -/
def parse? : List String → Option Request
  | [] => none
  | word :: words =>
    match formOf word with
    | .plain => do readWords (← Verb.ofWord? word) {} words
    | .long name none => if name = Opt.version.name then some (.version none) else none
    | .short ('V' :: _) => some (.version none)
    | _ => none

end Foldergram.Command
