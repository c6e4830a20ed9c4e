import Foldergram.Proofs.Diagram.Labels
import Foldergram.Proofs.Diagram.Strokes

/-!
The lines of an export, each with the words it is made of. What a stroke or an edge reads is said here by the
items of a tree and the numbers that they go by, and the printers of both formats write exactly these lines.
-/

namespace Foldergram

/-- What a line is there for: it may declare the item that goes by a number, draw an edge or give an item its
colour. -/
inductive LineRole where
  | item (number : Nat)
  | edge (e : MergedEdge)
  | style (number : Nat)
  | plain

structure Line where
  depth : Nat
  text : String
  role : LineRole

namespace Line

/-- The line as it stands in an export, four blanks to a level. -/
def print (l : Line) : String :=
  String.ofList (List.replicate (4 * l.depth) ' ') ++ l.text ++ "\n"

def printAll (lines : List Line) : String :=
  String.join (lines.map print)

/-- What a line has behind the name that it starts with. -/
def sign? (l : Line) : Option Char :=
  match l.text.toList with
  | 'n' :: rest => (rest.dropWhile fun d => d.isDigit || d = ' ').head?
  | _ => none

def isBox (l : Line) : Bool :=
  l.sign? = some '['

def isEdge (l : Line) : Bool :=
  l.sign? = some '-'

def declared? (l : Line) : Option Nat :=
  match l.role with
  | .item number => some number
  | _ => none

def edge? (l : Line) : Option MergedEdge :=
  match l.role with
  | .edge e => some e
  | _ => none

def styled? (l : Line) : Option Nat :=
  match l.role with
  | .style number => some number
  | _ => none

@[simp] theorem printAll_nil : printAll [] = "" := rfl

@[simp] theorem printAll_cons (l : Line) (lines : List Line) :
    printAll (l :: lines) = l.print ++ printAll lines := by
  simp [printAll]

@[simp] theorem printAll_append (lines lines' : List Line) :
    printAll (lines ++ lines') = printAll lines ++ printAll lines' := by
  simp [printAll]

@[simp] theorem dropWhile_toDigits (number : Nat) (rest : List Char) :
    (Nat.toDigits 10 number ++ rest).dropWhile (fun d => d.isDigit || d = ' ') =
      rest.dropWhile (fun d => d.isDigit || d = ' ') := by
  apply List.dropWhile_append_of_pos
  intro d hd
  rw [Nat.isDigit_of_mem_toDigits (by decide) (by decide) hd, Bool.true_or]

/-- Texts that are each printed as some lines are together printed as all of them. -/
theorem join_map_eq {α : Type} {l : List α} {write : α → String} {lines : α → List Line}
    (h : ∀ x ∈ l, write x = printAll (lines x)) :
    String.join (l.map write) = printAll (l.flatMap lines) := by
  induction l with
  | nil => rfl
  | cons x l ih =>
    rw [List.flatMap_cons, printAll_append, ← h x (List.mem_cons_self ..),
      ← ih fun y hy => h y (List.mem_cons_of_mem _ hy)]
    simp

end Line

open Line

variable {c : Canvas} {external : List String} {folder : Option String} {depth number : Nat} {x : Item}
  {e : MergedEdge}

namespace Dot

def labelText (s : String) : String :=
  String.ofList (s.toList.flatMap quotedChar)

def dependencyText (count : Nat) : String :=
  if 0 < count then s!"\\n{count} deps" else ""

/-- What is written at an item: a box is one line, and a cluster is opened in four and closed in one. -/
def strokeLines (c : Canvas) : Stroke Item → List Line
  | .box depth number x =>
    let label := labelText x.label ++ dependencyText x.dependencyCount
    let color := c.color x.id
    let shape := if x.isFolder then " shape=folder" else ""
    [⟨depth, s!"n{number} [label=\"{label}\" fillcolor=\"{color}\"{shape}];", .item number⟩]
  | .opening depth number x =>
    let label := labelText x.label
    let color := c.color x.id
    [⟨depth, s!"subgraph cluster_{number} \x7b", .item number⟩,
      ⟨depth + 1, s!"label=\"{label}\";", .plain⟩,
      ⟨depth + 1, "style=filled;", .plain⟩,
      ⟨depth + 1, s!"fillcolor=\"{color}\";", .plain⟩]
  | .closing depth => [⟨depth, "\x7d", .plain⟩]

/-- An edge that stands for several has their number at it. -/
def edgeText (i j count : Nat) : String :=
  if count = 1 then s!"n{i} -> n{j} [color=\"#A9A9A9\" penwidth=2];"
  else s!"n{i} -> n{j} [color=\"#A9A9A9\" penwidth=2 label=\"{count} dependencies\"];"

def firstLines : List Line :=
  [⟨0, "digraph code_graph \x7b", .plain⟩, ⟨1, "rankdir=TB;", .plain⟩, ⟨1, "compound=true;", .plain⟩,
    ⟨1, "node [shape=box style=filled fontname=monospace];", .plain⟩]

theorem escapeLabel_eq (s : String) : escapeLabel s = labelText s := by
  rw [labelText, ← toList_escapeLabel, String.ofList_toList]

theorem boxLine_eq : boxLine depth number (c.node external x folder) =
    printAll (strokeLines c (.box depth number x)) := by
  have hwords : boxLine depth number (c.node external x folder) =
      indent depth ++ s!"n{number} [label=\"" ++ labelText x.label ++ dependencyText x.dependencyCount ++
        "\" fillcolor=\"" ++ c.color x.id ++ "\"" ++ (if x.isFolder then " shape=folder" else "") ++
        "];\n" := by
    rw [← escapeLabel_eq]
    cases x <;> rfl
  rw [hwords, ← String.toList_inj]
  simp [strokeLines, print, indent, toString]

theorem clusterHead_eq : clusterHead depth number (c.node external x folder) =
    printAll (strokeLines c (.opening depth number x)) := by
  simp only [clusterHead, Canvas.node, escapeLabel_eq, ← String.toList_inj]
  simp [strokeLines, print, indent, toString, Nat.mul_add, List.replicate_add]

theorem stroke_eq (s : Stroke Item) :
    stroke (s.map fun x => c.node external x (c.tree.parent? x.id)) = printAll (strokeLines c s) := by
  cases s with
  | box depth number x => exact boxLine_eq
  | opening depth number x => exact clusterHead_eq
  | closing depth =>
    rw [← String.toList_inj]
    simp [Stroke.map, stroke, strokeLines, print, indent]

theorem heading_eq : heading = printAll firstLines := by decide +kernel

theorem edgeLine_eq (h : 0 < e.count) :
    edgeLine e = print ⟨1, edgeText e.source e.target e.count, .edge e⟩ := by
  rw [← String.toList_inj]
  rcases Nat.lt_or_eq_of_le h with hmany | hone
  · simp [edgeLine, edgeText, edgeLabel, edgeColor, hmany, hmany.ne', print, toString, List.replicate]
  · simp [edgeLine, edgeText, edgeColor, ← hone, print, toString, List.replicate]

end Dot

namespace Mermaid

def labelText (s : String) : String :=
  String.ofList (s.toList.flatMap labelChar)

/-- A folder has a double frame. What is inside of one that is open stands between its two lines. -/
def strokeLines : Stroke Item → List Line
  | .box depth number x =>
    let label := labelText x.label
    [⟨depth, if x.isFolder then s!"n{number}[[\"{label}\"]]" else s!"n{number}[\"{label}\"]", .item number⟩]
  | .opening depth number x =>
    let label := labelText x.label
    [⟨depth, s!"subgraph n{number}[\"{label}\"]", .item number⟩]
  | .closing depth => [⟨depth, "end", .plain⟩]

def edgeText (i j count : Nat) : String :=
  if count = 1 then s!"n{i} --> n{j}" else s!"n{i} -->|\"{count} dependencies\"| n{j}"

def firstLines : List Line :=
  [⟨0, "flowchart TB", .plain⟩]

def colorLine (c : Canvas) (number : Nat) (x : Item) : Line :=
  let color := c.color x.id
  ⟨1, s!"style n{number} fill:{color}", .style number⟩

theorem escapeLabel_eq (s : String) : escapeLabel s = labelText s := by
  rw [labelText, ← toList_escapeLabel, String.ofList_toList]

theorem stroke_eq (s : Stroke Item) :
    stroke (s.map fun x => c.node external x (c.tree.parent? x.id)) = printAll (strokeLines s) := by
  rw [← String.toList_inj]
  cases s with
  | box depth number x =>
    cases x <;>
    · simp [Stroke.map, stroke, boxLine, Canvas.node, escapeLabel_eq, strokeLines, print, indent, toString]
  | opening depth number x =>
    simp [Stroke.map, stroke, Canvas.node, escapeLabel_eq, strokeLines, print, indent, toString]
  | closing depth => simp [Stroke.map, stroke, strokeLines, print, indent]

theorem heading_eq : "flowchart TB\n" = printAll firstLines := by decide +kernel

theorem edgeLine_eq (h : 0 < e.count) :
    edgeLine e = print ⟨1, edgeText e.source e.target e.count, .edge e⟩ := by
  rw [← String.toList_inj]
  rcases Nat.lt_or_eq_of_le h with hmany | hone
  · simp [edgeLine, edgeText, edgeLabel, hmany.ne', print, toString, List.replicate]
  · simp [edgeLine, edgeText, ← hone, print, toString, List.replicate]

theorem styleLine_eq : styleLine number (c.node external x folder) = print (colorLine c number x) := by
  rw [← String.toList_inj]
  simp [styleLine, Canvas.node, colorLine, print, toString, List.replicate]

end Mermaid

namespace DrawingFormat

def firstLines : DrawingFormat → List Line
  | .dot => Dot.firstLines
  | .mermaid => Mermaid.firstLines

def strokeLines (c : Canvas) : DrawingFormat → Stroke Item → List Line
  | .dot => Dot.strokeLines c
  | .mermaid => Mermaid.strokeLines

def edgeText : DrawingFormat → (i j count : Nat) → String
  | .dot => Dot.edgeText
  | .mermaid => Mermaid.edgeText

def lineOf (format : DrawingFormat) (e : MergedEdge) : Line :=
  ⟨1, format.edgeText e.source e.target e.count, .edge e⟩

/-- Behind the edges, a Mermaid chart has the colours of all that it declares. -/
def lastLines (c : Canvas) (declared : List (Item × Nat)) : DrawingFormat → List Line
  | .dot => [⟨0, "\x7d", .plain⟩]
  | .mermaid => declared.map fun (x, number) => Mermaid.colorLine c number x

/-- An edge line has the names of both positions, and how many edges it stands for. -/
theorem edgeLine_eq (format : DrawingFormat) (h : 0 < e.count) :
    format.edgeLine e = (format.lineOf e).print := by
  cases format with
  | dot => exact Dot.edgeLine_eq h
  | mermaid => exact Mermaid.edgeLine_eq h

theorem heading_eq (format : DrawingFormat) : format.heading = printAll format.firstLines := by
  cases format with
  | dot => exact Dot.heading_eq
  | mermaid => exact Mermaid.heading_eq

theorem stroke_eq (format : DrawingFormat) (s : Stroke Item) :
    format.stroke (s.map fun x => c.node external x (c.tree.parent? x.id)) =
      printAll (format.strokeLines c s) := by
  cases format with
  | dot => exact Dot.stroke_eq s
  | mermaid => exact Mermaid.stroke_eq s

end DrawingFormat

/-- What is found in lines: the number of boxes, the numbers declared, the edges, and the numbers that get
their colour. -/
structure Line.Tells (lines : List Line) (boxes : Nat) (declared : List Nat) (edges : List MergedEdge)
    (styled : List Nat) : Prop where
  boxes : lines.countP isBox = boxes
  edgeLines : lines.countP isEdge = edges.length
  declared : lines.filterMap declared? = declared
  edges : lines.filterMap edge? = edges
  styled : lines.filterMap styled? = styled

namespace Line.Tells

variable {lines lines' : List Line} {boxes boxes' : Nat} {declared declared' styled styled' : List Nat}
  {edges edges' : List MergedEdge}

theorem append (h : Tells lines boxes declared edges styled)
    (h' : Tells lines' boxes' declared' edges' styled') :
    Tells (lines ++ lines') (boxes + boxes') (declared ++ declared') (edges ++ edges')
      (styled ++ styled') where
  boxes := by rw [List.countP_append, h.boxes, h'.boxes]
  edgeLines := by rw [List.countP_append, h.edgeLines, h'.edgeLines, List.length_append]
  declared := by rw [List.filterMap_append, h.declared, h'.declared]
  edges := by rw [List.filterMap_append, h.edges, h'.edges]
  styled := by rw [List.filterMap_append, h.styled, h'.styled]

theorem nil : Tells [] 0 [] [] [] := ⟨rfl, rfl, rfl, rfl, rfl⟩

end Line.Tells

namespace DrawingFormat

theorem tells_firstLines (format : DrawingFormat) : Tells format.firstLines 0 [] [] [] := by
  cases format <;> exact ⟨by decide +kernel, by decide +kernel, rfl, rfl, rfl⟩

/-- Among the lines of a stroke is a box exactly if the stroke is one. -/
theorem tells_stroke (c : Canvas) (format : DrawingFormat) (s : Stroke Item) :
    Tells (format.strokeLines c s) ([s].countP Stroke.isBox)
      (([s].filterMap Stroke.declared?).map Prod.snd) [] [] := by
  have hsigns : (format.strokeLines c s).countP isBox = [s].countP Stroke.isBox ∧
      (format.strokeLines c s).countP isEdge = 0 := by
    cases format <;> rcases s with ⟨_, _, _ | _⟩ | _ | _ <;>
    · simp [strokeLines, Dot.strokeLines, Mermaid.strokeLines, List.countP_cons, isBox, isEdge, sign?,
        toString, Stroke.isBox]
  obtain ⟨hboxes, hedges⟩ := hsigns
  cases format <;> cases s <;> exact ⟨hboxes, hedges, rfl, rfl, rfl⟩

theorem tells_strokes (c : Canvas) (format : DrawingFormat) (strokes : List (Stroke Item)) :
    Tells (strokes.flatMap (format.strokeLines c)) (strokes.countP Stroke.isBox)
      ((strokes.filterMap Stroke.declared?).map Prod.snd) [] [] := by
  induction strokes with
  | nil => exact Tells.nil
  | cons s strokes ih =>
    have h := (tells_stroke c format s).append ih
    rwa [← List.countP_append, ← List.map_append, ← List.filterMap_append] at h

theorem tells_lineOf (format : DrawingFormat) (e : MergedEdge) : Tells [format.lineOf e] 0 [] [e] [] := by
  have hsign : (format.lineOf e).sign? = some '-' := by
    cases format <;>
    · simp only [lineOf, edgeText, Dot.edgeText, Mermaid.edgeText]
      split <;> simp [sign?, toString]
  exact ⟨by simp [isBox, hsign], by simp [isEdge, hsign], rfl, rfl, rfl⟩

theorem tells_edges (format : DrawingFormat) (edges : List MergedEdge) :
    Tells (edges.map format.lineOf) 0 [] edges [] := by
  induction edges with
  | nil => exact Tells.nil
  | cons e edges ih => exact (format.tells_lineOf e).append ih

theorem tells_colorLine (c : Canvas) (number : Nat) (x : Item) :
    Tells [Mermaid.colorLine c number x] 0 [] [] [number] := by
  have hsign : (Mermaid.colorLine c number x).sign? = none := by
    simp [Mermaid.colorLine, sign?, toString]
  exact ⟨by simp [isBox, hsign], by simp [isEdge, hsign], rfl, rfl, rfl⟩

theorem tells_lastLines (c : Canvas) (declared : List (Item × Nat)) (format : DrawingFormat) :
    Tells (format.lastLines c declared) 0 [] []
      (if format = .mermaid then declared.map Prod.snd else []) := by
  cases format with
  | dot => exact ⟨rfl, rfl, rfl, rfl, rfl⟩
  | mermaid =>
    rw [if_pos rfl]
    induction declared with
    | nil => exact Tells.nil
    | cons entry declared ih => exact (tells_colorLine c entry.2 entry.1).append ih

end DrawingFormat

end Foldergram
