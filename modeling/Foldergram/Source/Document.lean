import Foldergram.Json.Reader
import Foldergram.Source.Basic
import Foldergram.Source.Fault

/-!
Graph documents: a JSON object with the lists `Nodes` and `Edges`. A record is an object whose keys
are visited in byte order, or an array of its fields; the first problem met is the one reported.
-/

namespace Foldergram

abbrev RecordResult (α : Type) := Except RecordFault α

namespace Json

def text : Json → RecordResult String
  | .str s => .ok s
  | value => .error (.wrongType value .text)

/-- The greatest count; counts have 32 bits. -/
def countLimit : Int := 4294967295

def count : Json → RecordResult Nat
  | .int n => if 0 ≤ n ∧ n ≤ countLimit then .ok n.toNat else .error (.outOfRange n)
  | value => .error (.wrongType value .count)

end Json

/-- Fills a field once. -/
def fillOnce {α : Type} (name : String) (old : Option α) (read : RecordResult α) :
    RecordResult (Option α) :=
  match old with
  | some _ => .error (.duplicate name)
  | none => read.map some

namespace SourceFile

inductive Field where
  | id
  | label
  | dependencyCount

def Field.ofKey? (key : String) : Option Field :=
  if key = "ID" ∨ key = "id" then some .id
  else if key = "Label" ∨ key = "label" then some .label
  else if key = "DependencyCount" ∨ key = "dependencyCount" ∨ key = "dependency_count" then
    some .dependencyCount
  else none

/-- The fields of a node record seen so far. -/
structure Draft where
  id : Option String := none
  label : Option String := none
  dependencyCount : Option Nat := none

/-- Keys that name no field are passed over with whatever they hold. -/
def Draft.visit (draft : Draft) (key : String) (value : Json) : RecordResult Draft :=
  match Field.ofKey? key with
  | none => .ok draft
  | some .id => do return { draft with id := ← fillOnce "ID" draft.id value.text }
  | some .label => do return { draft with label := ← fillOnce "Label" draft.label value.text }
  | some .dependencyCount => do
    return { draft with
      dependencyCount := ← fillOnce "DependencyCount" draft.dependencyCount value.count }

def Draft.finish (draft : Draft) : RecordResult SourceFile :=
  match draft.id with
  | none => .error (.missing "ID")
  | some id => .ok ⟨id, draft.label.getD "", draft.dependencyCount.getD 0⟩

def ofItems : List Json → RecordResult SourceFile
  | [] => .error (.tooShort 0 .node)
  | [id] => do return ⟨← id.text, "", 0⟩
  | [id, label] => do return ⟨← id.text, ← label.text, 0⟩
  | [id, label, count] => do return ⟨← id.text, ← label.text, ← count.count⟩
  | items@(id :: label :: count :: _) => do
    let _ ← id.text
    let _ ← label.text
    let _ ← count.count
    .error (.tooLong items.length)

def ofJson : Json → RecordResult SourceFile
  | .obj fields => do
    let draft ← fields.foldlM (fun draft (key, value) => draft.visit key value) ({} : Draft)
    draft.finish
  | .arr items => ofItems items
  | value => .error (.wrongType value (.record .node))

end SourceFile

namespace Dependency

inductive Field where
  | source
  | target

def Field.ofKey? (key : String) : Option Field :=
  if key = "Source" ∨ key = "source" then some .source
  else if key = "Target" ∨ key = "target" then some .target
  else none

/-- The fields of an edge record seen so far. -/
structure Draft where
  source : Option String := none
  target : Option String := none

/-- Keys that name no field are passed over with whatever they hold. -/
def Draft.visit (draft : Draft) (key : String) (value : Json) : RecordResult Draft :=
  match Field.ofKey? key with
  | none => .ok draft
  | some .source => do return { draft with source := ← fillOnce "Source" draft.source value.text }
  | some .target => do return { draft with target := ← fillOnce "Target" draft.target value.text }

def Draft.finish (draft : Draft) : RecordResult Dependency :=
  match draft.source, draft.target with
  | none, _ => .error (.missing "Source")
  | some _, none => .error (.missing "Target")
  | some source, some target => .ok ⟨source, target⟩

def ofItems : List Json → RecordResult Dependency
  | [] => .error (.tooShort 0 .edge)
  | [source] => do
    let _ ← source.text
    .error (.tooShort 1 .edge)
  | [source, target] => do return ⟨← source.text, ← target.text⟩
  | items@(source :: target :: _) => do
    let _ ← source.text
    let _ ← target.text
    .error (.tooLong items.length)

def ofJson : Json → RecordResult Dependency
  | .obj fields => do
    let draft ← fields.foldlM (fun draft (key, value) => draft.visit key value) ({} : Draft)
    draft.finish
  | .arr items => ofItems items
  | value => .error (.wrongType value (.record .edge))

end Dependency

namespace SourceGraph

/-- The list under the capitalised key, or else under the small one. -/
def collection (fields : List (String × Json)) (c : Collection) (smallKey : String) :
    Except InputFault (List Json) :=
  match (fields.lookup c.key).or (fields.lookup smallKey) with
  | some (.arr items) => .ok items
  | some value => .error (.notArray c value)
  | none => .error (.noCollection c)

/-- Reads records in order, with the first bad one reported by its position. -/
def readRecords {α : Type} (kind : RecordKind) (read : Json → RecordResult α) :
    (index : Nat) → List Json → Except InputFault (List α)
  | _, [] => .ok []
  | index, item :: items =>
    match read item with
    | .error fault => .error (.badRecord kind index fault)
    | .ok record => do return record :: (← readRecords kind read (index + 1) items)

def ofJson : Json → Except InputFault SourceGraph
  | .obj fields => do
    let nodes ← collection fields .nodes "nodes"
    let edges ← collection fields .edges "edges"
    let files ← readRecords .node SourceFile.ofJson 0 nodes
    let dependencies ← readRecords .edge Dependency.ofJson 0 edges
    return ⟨files, dependencies⟩
  | value => .error (.notObject value)

def ofText (text : String) : Except InputFault SourceGraph :=
  match Json.parse? text with
  | some value => ofJson value
  | none => .error .notJson

end SourceGraph

end Foldergram
