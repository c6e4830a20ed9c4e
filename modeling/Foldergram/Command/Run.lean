import Foldergram.Command.Arguments
import Foldergram.Command.Failure
import Foldergram.Report.Projection
import Foldergram.Report.Stats

/-! Running the program, over whatever serves its files. -/

namespace Foldergram.Command

/-- A loaded graph with the folders opened and closed as asked for. -/
structure View where
  session : Session
  folding : Folding
  projection : Projection

/-- What can stop a run: a failure to report, or coordinates out of range. -/
abbrev Outcome := ExceptT Failure Checked

/-- Opens or closes folders one after another. -/
def toggleAll (expanded : Bool) (failure : String → GraphError → Failure) :
    Session → Folding → List String → Outcome (Session × Folding)
  | s, f, [] => return (s, f)
  | s, f, id :: ids => do
    let reply ← liftM (s.toggle f id expanded)
    match reply.result with
    | (_, .error error) => throw (failure id error)
    | (f, .ok _) => toggleAll expanded failure reply.session f ids

/-- Loads a graph. All folders are opened first if asked for, then those to open, then those to close. -/
def Invocation.view (i : Invocation) (config : Config) (text : String) : Outcome View := do
  let loaded := (Session.ofConfig config).loadText text
  match loaded.result with
  | .error error => throw (.graphRefused i.graph error)
  | .ok initial =>
    let f := if i.expandAll then initial.openAll else initial
    let (s, f) ← toggleAll true .cannotExpand loaded.session f i.expand
    let (s, f) ← toggleAll false .cannotCollapse s f i.collapse
    let reply ← liftM (s.recompute f)
    return ⟨reply.session, f, reply.result⟩

/-- What a run has to show: a text to print, or a file to write and then tell of. -/
inductive Product where
  | print (text : String)
  | save (path content message : String)

def drawingFile (format : DrawingFormat) : String :=
  "code-graph-layout." ++ format.extension

def configFile : String := "code-graph-layout.toml"

/-- The directory of the graph. -/
def Invocation.directory (i : Invocation) : String :=
  if i.graph = "-" then "." else directoryOf i.graph

def Invocation.configPath (i : Invocation) : String :=
  i.config.getD (inDirectory i.directory configFile)

def Invocation.product (i : Invocation) (v : View) : Product :=
  match i.task with
  | .layout format => .print (v.projection.report v.folding false format)
  | .export format toStdout output =>
    let result := v.projection.exportAs v.folding format
    if toStdout then .print result.content
    else
      let path := output.getD (inDirectory i.directory (drawingFile format))
      .save path result.content
        s!"Exported {result.nodeCount} nodes, {result.edgeCount} edges to {path}\n"
  | .stats format =>
    match v.session.stats? v.projection with
    | some stats => .print (stats.report false format)
    | none => .print ""

/-- What serves the files of a run. -/
structure Host (m : Type → Type) where
  readFile : String → m (Except FileFault ByteArray)
  readInput : m (Except FileFault ByteArray)
  writeFile : String → ByteArray → m (Except FileFault Unit)

/-- How a run ends. -/
structure Ending where
  exit : Nat
  stdout : String := ""
  stderr : String := ""

def Ending.ofFailure (f : Failure) : Ending :=
  { exit := 1, stderr := f.report }

/-- Coordinates out of range stop the program. -/
def Ending.ofOverflow : Overflow → Ending
  | .sum => { exit := 101, stderr := "attempt to add with overflow\n" }

variable {m : Type → Type} [Monad m]

/-- A configuration that cannot be read or understood counts as empty. -/
def readConfig (host : Host m) (path : String) : m Config := do
  match ← host.readFile path with
  | .error _ => return {}
  | .ok bytes =>
    match Config.ofBytes bytes with
    | .ok config => return config
    | .error _ => return {}

def readGraph (host : Host m) (path : String) : m (Except Failure String) := do
  let failure := if path = "-" then Failure.inputUnread else Failure.graphUnread path
  match ← if path = "-" then host.readInput else host.readFile path with
  | .error fault => return .error (failure fault)
  | .ok bytes =>
    match String.fromUTF8? bytes with
    | some text => return .ok text
    | none => return .error (failure .notText)

def deliver (host : Host m) : Product → m Ending
  | .print text => return { exit := 0, stdout := text }
  | .save path content message => do
    match ← host.writeFile path content.toUTF8 with
    | .ok () => return { exit := 0, stdout := message }
    | .error fault => return .ofFailure (.drawingUnwritten path fault)

def Invocation.run (host : Host m) (i : Invocation) : m Ending := do
  match ← readGraph host i.graph with
  | .error failure => return .ofFailure failure
  | .ok text =>
    let config ← readConfig host i.configPath
    match (i.view config text).run with
    | .error overflow => return .ofOverflow overflow
    | .ok (.error failure) => return .ofFailure failure
    | .ok (.ok view) => deliver host (i.product view)

def versionLine (verb : Option Verb) : String :=
  let name := match verb with
    | none => "code-graph-layout"
    | some verb => "code-graph-layout-" ++ verb.word
  name ++ " 0.1.0\n"

/-- Runs a command line; one that cannot be used ends with exit code 2. -/
def run (host : Host m) (args : List String) : m Ending :=
  match parse? args with
  | none => return { exit := 2 }
  | some (.version verb) => return { exit := 0, stdout := versionLine verb }
  | some (.perform invocation) => invocation.run host

/-- Files served from memory. -/
def Workspace.host (input : ByteArray) : Host (StateM Workspace) where
  readFile name := return (← get).read name
  readInput := return .ok input
  writeFile name content := do
    match (← get).write name content with
    | .ok w =>
      set w
      return .ok ()
    | .error fault => return .error fault

end Foldergram.Command
