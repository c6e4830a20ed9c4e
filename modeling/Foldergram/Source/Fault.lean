import Foldergram.Json.Printer
import Foldergram.Text.Quoted

/-! What can be wrong with a delivered graph, and how it is reported. -/

namespace Foldergram

/-- The two kinds of record in a graph document. -/
inductive RecordKind where
  | node
  | edge
  deriving DecidableEq, Repr

def RecordKind.word : RecordKind → String
  | .node => "node"
  | .edge => "edge"

def RecordKind.typeName : RecordKind → String
  | .node => "struct SourceNode"
  | .edge => "struct SourceEdge"

def RecordKind.fieldCount : RecordKind → Nat
  | .node => 3
  | .edge => 2

/-- What a place in a record calls for. -/
inductive Expected where
  | text
  | count
  | record (kind : RecordKind)
  deriving DecidableEq, Repr

def Expected.phrase : Expected → String
  | .text => "a string"
  | .count => "u32"
  | .record kind => kind.typeName

inductive RecordFault where
  | wrongType (found : Json) (expected : Expected)
  | outOfRange (n : Int)
  | duplicate (field : String)
  | missing (field : String)
  | tooShort (length : Nat) (kind : RecordKind)
  | tooLong (length : Nat)

/-- The top-level lists of a graph document. -/
inductive Collection where
  | nodes
  | edges
  deriving DecidableEq, Repr

def Collection.key : Collection → String
  | .nodes => "Nodes"
  | .edges => "Edges"

inductive InputFault where
  | notJson
  | notObject (found : Json)
  | notArray (collection : Collection) (found : Json)
  | noCollection (collection : Collection)
  | badRecord (kind : RecordKind) (index : Nat) (fault : RecordFault)

/-- How a message refers to a value that stands where a whole list or document should. -/
def Json.kindPhrase : Json → String
  | .null => "null"
  | .bool _ => "a boolean"
  | .int _ | .real _ _ => "a number"
  | .str _ => "a string"
  | .arr _ => "an array"
  | .obj _ => "an object"

/-- How a message refers to a value that stands where a field or record should. -/
def Json.foundPhrase : Json → String
  | .null => "null"
  | .bool b => s!"boolean `{b}`"
  | .int n => s!"integer `{n}`"
  | .real negative magnitude => "floating point `" ++ Json.realText negative magnitude ++ "`"
  | .str s => "string " ++ Text.quoted s
  | .arr _ => "sequence"
  | .obj _ => "map"

def RecordFault.message : RecordFault → String
  | .wrongType found expected => "invalid type: " ++ found.foundPhrase ++ ", expected " ++ expected.phrase
  | .outOfRange n => s!"invalid value: integer `{n}`, expected " ++ Expected.count.phrase
  | .duplicate field => s!"duplicate field `{field}`"
  | .missing field => s!"missing field `{field}`"
  | .tooShort length kind =>
    s!"invalid length {length}, expected {kind.typeName} with {kind.fieldCount} elements"
  | .tooLong length => s!"invalid length {length}, expected fewer elements in array"

def InputFault.message : InputFault → String
  | .notJson => "not valid JSON"
  | .notObject found => "expected a JSON object, found " ++ found.kindPhrase
  | .notArray collection found => s!"`{collection.key}` must be an array, found " ++ found.kindPhrase
  | .noCollection collection => s!"missing `{collection.key}` collection"
  | .badRecord kind index fault => s!"{kind.word} #{index}: " ++ fault.message

end Foldergram
