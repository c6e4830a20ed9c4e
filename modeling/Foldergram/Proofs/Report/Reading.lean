import Foldergram.Proofs.Folding
import Foldergram.Proofs.Json.Reading
import Foldergram.Report.Projection

/-!
A report as JSON tells everything it was made from. Its text is read back by the reader of graph documents, and
from the fields of the value every node, every edge, every message and every entry of the folding can be taken
again by its key. So different contents never give the same text.
-/

namespace Foldergram

variable {α β : Type}

/-- What was written item by item is read item by item. -/
theorem mapM_map_eq_some {write : α → β} {read : β → Option α} {l : List α}
    (h : ∀ x ∈ l, read (write x) = some x) : (l.map write).mapM read = some l := by
  induction l with
  | nil => rfl
  | cons x l ih => simp [h x (by simp), ih fun y hy => h y (List.mem_cons_of_mem _ hy)]

/-! ### Taking values apart -/

namespace Json

def text? : Json → Option String
  | .str s => some s
  | _ => none

def flag? : Json → Option Bool
  | .bool b => some b
  | _ => none

def number? : Json → Option Nat
  | .int n => n.toNat?
  | _ => none

/-- What is read from the value, or nothing for `null`. -/
def orNull? (read : Json → Option α) : Json → Option (Option α)
  | .null => some none
  | v => (read v).map some

def items? (read : Json → Option α) : Json → Option (List α)
  | .arr items => items.mapM read
  | _ => none

/-- What is read from the field with this key. -/
def get? (v : Json) (key : String) (read : Json → Option α) : Option α :=
  match v with
  | .obj fields => (fields.lookup key).bind read
  | _ => none

@[simp] theorem text?_str (s : String) : (str s).text? = some s := rfl

@[simp] theorem flag?_bool (b : Bool) : (bool b).flag? = some b := rfl

@[simp] theorem number?_int (n : Nat) : (int n).number? = some n := rfl

theorem get?_cons (key other : String) (v : Json) (fields : List (String × Json)) (read : Json → Option α) :
    (obj ((other, v) :: fields)).get? key read =
      if key = other then read v else (obj fields).get? key read := by
  by_cases h : key = other
  · simp [get?, h]
  · have hne : (key == other) = false := beq_false_of_ne h
    simp [get?, List.lookup_cons, h, hne]

theorem orNull?_getD {write : α → Json} {read : Json → Option α} {o : Option α}
    (h : ∀ x ∈ o, write x ≠ .null ∧ read (write x) = some x) :
    orNull? read ((o.map write).getD .null) = some o := by
  cases o with
  | none => rfl
  | some x =>
    obtain ⟨hne, hread⟩ := h x rfl
    rw [Option.map_some, Option.getD_some, orNull?, hread, Option.map_some]
    exact hne

end Json

open Json

def NodeKind.ofJson? : Json → Option NodeKind
  | .str "container" => some .folder
  | .str "leaf" => some .file
  | _ => none

def PositionedNode.ofJson? (v : Json) : Option PositionedNode := do
  return {
    id := ← v.get? "id" text?
    kind := ← v.get? "kind" NodeKind.ofJson?
    box := {
      x := ← v.get? "x" number?
      y := ← v.get? "y" number?
      width := ← v.get? "width" number?
      height := ← v.get? "height" number? }
    color := ← v.get? "color" text?
    label := ← v.get? "label" text?
    dependencyCount := ← v.get? "dependency_count" number?
    hasExternalEdges := ← v.get? "has_external_edges" flag?
    parentId := ← v.get? "parent_id" (orNull? text?) }

def ArrowHead.ofJson? (v : Json) : Option ArrowHead := do
  return {
    width := ← v.get? "width" number?
    height := ← v.get? "height" number?
    color := ← v.get? "color" text? }

def EdgeStyle.ofJson? (v : Json) : Option EdgeStyle := do
  return {
    hidden := ← v.get? "hidden" flag?
    stroke := ← v.get? "stroke" text?
    strokeWidth := ← v.get? "stroke_width" number?
    arrowHead := ← v.get? "arrow_head" (orNull? ArrowHead.ofJson?) }

/-- An edge, with the style it is drawn in. -/
def RoutedEdge.ofJson? (v : Json) : Option (RoutedEdge × EdgeStyle) := do
  let edge : RoutedEdge := {
    id := ← v.get? "id" text?
    source := ← v.get? "source" text?
    target := ← v.get? "target" text?
    sourceVisible := ← v.get? "source_visible" text?
    targetVisible := ← v.get? "target_visible" text?
    suppressed := ← v.get? "is_suppressed" flag? }
  return (edge, ← v.get? "style" EdgeStyle.ofJson?)

def Folding.ofJson? : Json → Option Folding
  | .obj fields => do
    let entries ← fields.mapM fun (id, v) => v.flag?.map (id, ·)
    return .ofEntries entries
  | _ => none

theorem NodeKind.ofJson?_json (k : NodeKind) : ofJson? k.json = some k := by
  cases k <;> rfl

theorem PositionedNode.ofJson?_json (n : PositionedNode) : ofJson? n.json = some n := by
  have hparent : orNull? text? ((n.parentId.map Json.str).getD .null) = some n.parentId :=
    orNull?_getD fun id _ => ⟨nofun, rfl⟩
  simp [ofJson?, json, get?_cons, n.kind.ofJson?_json, hparent]

theorem ArrowHead.ofJson?_json (a : ArrowHead) : ofJson? a.json = some a := by
  simp [ofJson?, json, get?_cons]

theorem EdgeStyle.ofJson?_json (s : EdgeStyle) : ofJson? s.json = some s := by
  have hhead : orNull? ArrowHead.ofJson? ((s.arrowHead.map ArrowHead.json).getD .null) = some s.arrowHead :=
    orNull?_getD fun a _ => ⟨nofun, a.ofJson?_json⟩
  simp [ofJson?, json, get?_cons, hhead]

/-- An edge drawn in any style. -/
def RoutedEdge.jsonIn (e : RoutedEdge) (s : EdgeStyle) : Json :=
  .obj [
    ("id", .str e.id),
    ("is_suppressed", .bool e.suppressed),
    ("source", .str e.source),
    ("source_visible", .str e.sourceVisible),
    ("style", s.json),
    ("target", .str e.target),
    ("target_visible", .str e.targetVisible)]

theorem RoutedEdge.ofJson?_jsonIn (e : RoutedEdge) (s : EdgeStyle) : ofJson? (e.jsonIn s) = some (e, s) := by
  simp [ofJson?, jsonIn, get?_cons, s.ofJson?_json]

theorem Folding.ofJson?_json (f : Folding) : ofJson? f.json = some f := by
  rw [json, ofJson?, mapM_map_eq_some]
  · exact congrArg some f.ofEntries_entries
  · exact fun _ _ => rfl

/-! ### What a report tells -/

/-- The contents of a report: the nodes, the edges with their styles, a message for each dependency that is left
out, and the folding. -/
structure Report.Contents where
  nodes : List PositionedNode
  edges : List (RoutedEdge × EdgeStyle)
  messages : List String
  folding : Folding

def Projection.contents (p : Projection) (f : Folding) : Report.Contents where
  nodes := p.nodes
  edges := p.edges.map fun e => (e, e.style)
  messages := p.skipped.map (·.message)
  folding := f

namespace Report.Contents

def json (c : Contents) : Json :=
  .obj [
    ("collapse_state", c.folding.json),
    ("edges", .arr (c.edges.map fun (e, s) => e.jsonIn s)),
    ("nodes", .arr (c.nodes.map PositionedNode.json)),
    ("skipped", .arr (c.messages.map Json.str))]

def ofJson? (v : Json) : Option Contents := do
  return {
    nodes := ← v.get? "nodes" (items? PositionedNode.ofJson?)
    edges := ← v.get? "edges" (items? RoutedEdge.ofJson?)
    messages := ← v.get? "skipped" (items? text?)
    folding := ← v.get? "collapse_state" Folding.ofJson? }

theorem ofJson?_json (c : Contents) : ofJson? c.json = some c := by
  have hnodes := mapM_map_eq_some (l := c.nodes) fun n _ => n.ofJson?_json
  have hedges := mapM_map_eq_some (l := c.edges) fun e _ => e.1.ofJson?_jsonIn e.2
  have hmessages : (c.messages.map Json.str).mapM text? = some c.messages := mapM_map_eq_some fun _ _ => rfl
  simp [ofJson?, json, get?_cons, items?, hnodes, hedges, hmessages, c.folding.ofJson?_json]

end Report.Contents

theorem Projection.json_eq (p : Projection) (f : Folding) : p.json f = (p.contents f).json := by
  simp only [json, contents, Report.Contents.json, List.map_map]
  rfl

/-! ### Reading a report -/

theorem exact_coordinate {n : Nat} (h : n ≤ coordinateLimit) (levels : Nat) : (Json.int n).Exact levels :=
  exact_int (Nat.le_trans h (by decide)) levels

/-- The coordinates and the count have 32 bits. -/
def PositionedNode.InRange (n : PositionedNode) : Prop :=
  n.box.x ≤ coordinateLimit ∧ n.box.y ≤ coordinateLimit ∧ n.box.width ≤ coordinateLimit ∧
    n.box.height ≤ coordinateLimit ∧ n.dependencyCount ≤ coordinateLimit

def EdgeStyle.InRange (s : EdgeStyle) : Prop :=
  s.strokeWidth ≤ coordinateLimit ∧
    ∀ head ∈ s.arrowHead, head.width ≤ coordinateLimit ∧ head.height ≤ coordinateLimit

theorem RoutedEdge.inRange_style (e : RoutedEdge) : e.style.InRange := by
  unfold style
  split <;> simp [EdgeStyle.InRange, coordinateLimit]

theorem PositionedNode.exact_json {n : PositionedNode} (h : n.InRange) (levels : Nat) :
    n.json.Exact (levels + 1) := by
  obtain ⟨hx, hy, hwidth, hheight, hcount⟩ := h
  have hkind : n.kind.json.Exact levels := by cases n.kind <;> exact exact_str ..
  have hparent : ((n.parentId.map Json.str).getD .null).Exact levels := by cases n.parentId <;> simp
  refine exact_obj ["color", "dependency_count", "has_external_edges", "height", "id", "kind", "label",
    "parent_id", "width", "x", "y"] rfl (by decide) ?_
  simp [exact_coordinate, hx, hy, hwidth, hheight, hcount, hkind, hparent]

theorem ArrowHead.exact_json {a : ArrowHead} (hwidth : a.width ≤ coordinateLimit)
    (hheight : a.height ≤ coordinateLimit) (levels : Nat) : a.json.Exact (levels + 1) := by
  refine exact_obj ["color", "height", "width"] rfl (by decide) ?_
  simp [exact_coordinate, hwidth, hheight]

theorem EdgeStyle.exact_json {s : EdgeStyle} (h : s.InRange) (levels : Nat) : s.json.Exact (levels + 2) := by
  have hhead : ((s.arrowHead.map ArrowHead.json).getD .null).Exact (levels + 1) := by
    cases ha : s.arrowHead with
    | none => exact exact_null _
    | some head =>
      obtain ⟨hwidth, hheight⟩ := h.2 head ha
      exact head.exact_json hwidth hheight levels
  refine exact_obj ["arrow_head", "hidden", "stroke", "stroke_width"] rfl (by decide) ?_
  simp [exact_coordinate, h.1, hhead]

theorem RoutedEdge.exact_jsonIn (e : RoutedEdge) {s : EdgeStyle} (h : s.InRange) (levels : Nat) :
    (e.jsonIn s).Exact (levels + 3) := by
  refine exact_obj ["id", "is_suppressed", "source", "source_visible", "style", "target", "target_visible"]
    rfl (by decide) ?_
  simp [s.exact_json h]

theorem Folding.exact_json (f : Folding) (levels : Nat) : f.json.Exact (levels + 1) := by
  refine exact_obj (f.entries.map Prod.fst) (by simp) f.pairwise_entries ?_
  intro field hf
  obtain ⟨⟨id, expanded⟩, -, rfl⟩ := List.mem_map.mp hf
  exact exact_bool levels expanded

namespace Report.Contents

/-- All numbers have 32 bits. -/
def InRange (c : Contents) : Prop :=
  (∀ n ∈ c.nodes, n.InRange) ∧ ∀ e ∈ c.edges, e.2.InRange

theorem exact_json {c : Contents} (h : c.InRange) (levels : Nat) : c.json.Exact (levels + 5) := by
  have hnodes : (Json.arr (c.nodes.map PositionedNode.json)).Exact (levels + 4) := by
    intro v hv
    obtain ⟨n, hn, rfl⟩ := List.mem_map.mp hv
    exact n.exact_json (h.1 n hn) _
  have hedges : (Json.arr (c.edges.map fun (e, s) => e.jsonIn s)).Exact (levels + 4) := by
    intro v hv
    obtain ⟨⟨e, s⟩, he, rfl⟩ := List.mem_map.mp hv
    exact e.exact_jsonIn (h.2 _ he) _
  have hmessages : (Json.arr (c.messages.map Json.str)).Exact (levels + 4) := by
    intro v hv
    obtain ⟨s, -, rfl⟩ := List.mem_map.mp hv
    exact exact_str _ s
  refine exact_obj ["collapse_state", "edges", "nodes", "skipped"] rfl (by decide) ?_
  simp [hnodes, hedges, hmessages, c.folding.exact_json]

def text (c : Contents) : String :=
  c.json.pretty ++ "\n"

/-- The text of a report holds its value. -/
theorem parse?_text {c : Contents} (h : c.InRange) : Json.parse? c.text = some c.json :=
  Json.parse?_pretty (c.exact_json h 122)

theorem text_inj {c c' : Contents} (h : c.InRange) (h' : c'.InRange) (ht : c.text = c'.text) : c = c' := by
  have hjson : c.json = c'.json := by
    rw [← Option.some.injEq, ← parse?_text h, ht, parse?_text h']
  rw [← Option.some.injEq, ← ofJson?_json c, hjson, ofJson?_json]

end Report.Contents

namespace Projection

theorem report_eq (p : Projection) (f : Folding) (terminal : Bool) :
    p.report f terminal .json = (p.contents f).text := by
  rw [report, json_eq, Report.Contents.text]

theorem contents_inRange {p : Projection} (h : ∀ n ∈ p.nodes, n.InRange) (f : Folding) :
    (p.contents f).InRange := by
  refine ⟨h, ?_⟩
  intro pair hpair
  obtain ⟨e, -, rfl⟩ := List.mem_map.mp hpair
  exact e.inRange_style

end Projection

/-- A report as JSON is read back whole. Where the numbers of the nodes have 32 bits, the text holds an object
with just the four fields of a report, from which the contents can be taken again; so reports with the same text
have the same nodes, edges, messages and folding. This does not rest on how edges are styled or what the
messages say: any contents are read back. -/
theorem report_reads_back {p : Projection} (h : ∀ n ∈ p.nodes, n.InRange) (f : Folding) (terminal : Bool) :
    (∃ fields, Json.parse? (p.report f terminal .json) = some (.obj fields) ∧
      fields.map Prod.fst = ["collapse_state", "edges", "nodes", "skipped"] ∧
      Report.Contents.ofJson? (.obj fields) = some (p.contents f)) ∧
    (∀ (p' : Projection) (f' : Folding) (terminal' : Bool), (∀ n ∈ p'.nodes, n.InRange) →
      p.report f terminal .json = p'.report f' terminal' .json →
      p.nodes = p'.nodes ∧ p.edges = p'.edges ∧
        p.skipped.map (·.message) = p'.skipped.map (·.message) ∧ f = f') ∧
    ∀ c : Report.Contents, c.InRange → (Json.parse? c.text).bind Report.Contents.ofJson? = some c := by
  refine ⟨?_, ?_, ?_⟩
  · refine ⟨_, ?_, ?_, (p.contents f).ofJson?_json⟩
    · rw [p.report_eq]
      exact Report.Contents.parse?_text (p.contents_inRange h f)
    · rfl
  · intro p' f' terminal' h' ht
    rw [p.report_eq, p'.report_eq] at ht
    have hc := Report.Contents.text_inj (p.contents_inRange h f) (p'.contents_inRange h' f') ht
    injection hc with hnodes hedges hmessages hfolding
    have hstyled : Function.Injective fun e : RoutedEdge => (e, e.style) :=
      fun e e' he => congrArg Prod.fst he
    exact ⟨hnodes, hstyled.list_map hedges, hmessages, hfolding⟩
  · intro c hc
    rw [Report.Contents.parse?_text hc]
    exact c.ofJson?_json

/-- Texts with quotes, backslashes, controls and characters of several bytes, as keys as well. -/
theorem report_reads_back_escapes :
    let p : Projection := {
      nodes := [⟨"a\"\\", .folder, ⟨0, 0, 4294967295, 60⟩, "", "\x01\x1f\x7f", 0, true, none⟩,
        ⟨"a\"\\/é😀", .file, ⟨40, 100, 120, 40⟩, "#E8EAED", "\n\t\r", 4294967295, false, some "a\"\\"⟩],
      edges := [⟨"e-0", "a\"\\/é😀", "root", "a\"\\", "a\"\\", true⟩, ⟨"", "\\u0041", "", "\"", ",", false⟩],
      skipped := [⟨1, "\\"⟩] }
    let f := (Folding.empty.set "\"\\" true).set "" false
    (∀ n ∈ p.nodes, n.InRange) ∧ ∃ fields, Json.parse? (p.report f true .json) = some (.obj fields) ∧
      fields.map Prod.fst = ["collapse_state", "edges", "nodes", "skipped"] ∧
      Report.Contents.ofJson? (.obj fields) = some (p.contents f) := by
  intro p f
  have h : ∀ n ∈ p.nodes, n.InRange := by
    simp [p, PositionedNode.InRange, coordinateLimit]
  exact ⟨h, (report_reads_back h f true).1⟩

end Foldergram
