import Foldergram.Diagram.Export
import Foldergram.Proofs.Projection.Preorder

/-!
Drawings stroke by stroke. The text of nested figures is the text of their strokes one after another, and
the strokes of a tree can be found by going through the tree once, without a list of nodes in between.
-/

namespace Foldergram

/-- What is written at a time: a box, or one of the two ends of a cluster. -/
inductive Stroke (α : Type) where
  | box (depth number : Nat) (content : α)
  | opening (depth number : Nat) (content : α)
  | closing (depth : Nat)

namespace Stroke

variable {α β : Type}

def map (g : α → β) : Stroke α → Stroke β
  | .box depth number content => .box depth number (g content)
  | .opening depth number content => .opening depth number (g content)
  | .closing depth => .closing depth

/-- What goes by a number from this stroke on. -/
def declared? : Stroke α → Option (α × Nat)
  | .box _ number content => some (content, number)
  | .opening _ number content => some (content, number)
  | .closing _ => none

def isBox : Stroke α → Bool
  | .box _ _ _ => true
  | _ => false

theorem declared?_map (g : α → β) (s : Stroke α) :
    (s.map g).declared? = s.declared?.map (Prod.map g id) := by
  cases s <;> rfl

theorem declared?_map_of_some (g : α → β) {s : Stroke α} {a : α} {k : Nat}
    (h : s.declared? = some (a, k)) : (s.map g).declared? = some (g a, k) := by
  rw [declared?_map, h]
  rfl

theorem isBox_map (g : α → β) (s : Stroke α) : (s.map g).isBox = s.isBox := by
  cases s <;> rfl

end Stroke

namespace Figure

mutual

def strokes (depth : Nat) : Figure → List (Stroke PositionedNode)
  | .box number node => [.box depth number node]
  | .cluster number node inside =>
    .opening depth number node :: (strokesOf (depth + 1) inside ++ [.closing depth])

def strokesOf (depth : Nat) : List Figure → List (Stroke PositionedNode)
  | [] => []
  | figure :: figures => figure.strokes depth ++ strokesOf depth figures

end

theorem strokesOf_append (depth : Nat) (figures figures' : List Figure) :
    strokesOf depth (figures ++ figures') = strokesOf depth figures ++ strokesOf depth figures' := by
  induction figures with
  | nil => rfl
  | cons figure figures ih => rw [List.cons_append, strokesOf, strokesOf, ih, List.append_assoc]

/-- A text that puts what is inside a cluster between its two ends is written stroke by stroke. -/
theorem text_eq_join (write : Stroke PositionedNode → String) (text : Nat → Figure → String)
    (texts : Nat → List Figure → String)
    (box : ∀ depth number node, text depth (.box number node) = write (.box depth number node))
    (cluster : ∀ depth number node inside, text depth (.cluster number node inside) =
      write (.opening depth number node) ++ texts (depth + 1) inside ++ write (.closing depth))
    (nil : ∀ depth, texts depth [] = "")
    (cons : ∀ depth figure figures, texts depth (figure :: figures) =
      text depth figure ++ texts depth figures) :
    ∀ depth figures, texts depth figures = String.join ((strokesOf depth figures).map write) := by
  refine (strokes.mutual_induct
    (fun depth figure => text depth figure = String.join ((figure.strokes depth).map write))
    (fun depth figures => texts depth figures = String.join ((strokesOf depth figures).map write))
    ?_ ?_ ?_ ?_).2
  · intro depth number node
    rw [box, strokes]
    simp
  · intro depth number node inside ih
    rw [cluster, ih, strokes]
    simp [String.append_assoc]
  · intro depth
    rw [nil, strokesOf]
    simp
  · intro depth figure figures ih ihs
    rw [cons, ih, ihs, strokesOf]
    simp

/-- The numbered nodes of figures are those that their strokes declare. -/
theorem nodesOf_eq : ∀ depth figures,
    nodesOf figures = ((strokesOf depth figures).filterMap Stroke.declared?).map Prod.swap := by
  refine (strokes.mutual_induct
    (fun depth figure => figure.nodes = ((figure.strokes depth).filterMap Stroke.declared?).map Prod.swap)
    (fun depth figures =>
      nodesOf figures = ((strokesOf depth figures).filterMap Stroke.declared?).map Prod.swap)
    ?_ ?_ ?_ ?_).2
  · intro depth number node
    rfl
  · intro depth number node inside ih
    rw [nodes, ih, strokes]
    simp [Stroke.declared?]
  · intro depth
    rfl
  · intro depth figure figures ih ihs
    rw [nodesOf, ih, ihs, strokesOf]
    simp

end Figure

namespace Dot

def stroke : Stroke PositionedNode → String
  | .box depth number node => boxLine depth number node
  | .opening depth number node => clusterHead depth number node
  | .closing depth => indent depth ++ "\x7d\n"

theorem figuresText_eq (depth : Nat) (figures : List Figure) :
    figuresText depth figures = String.join ((Figure.strokesOf depth figures).map stroke) := by
  apply Figure.text_eq_join stroke figureText
  · exact fun _ _ _ => rfl
  · exact fun _ _ _ _ => String.append_assoc ..
  · exact fun _ => rfl
  · exact fun _ _ _ => rfl

theorem render_eq (d : Drawing) : render d = heading ++
    String.join ((Figure.strokesOf 1 d.figures).map stroke) ++ String.join (d.edges.map edgeLine) ++
      "\x7d\n" := by
  rw [render, figuresText_eq]

end Dot

namespace Mermaid

def stroke : Stroke PositionedNode → String
  | .box depth number node => boxLine depth number node
  | .opening depth number node =>
    indent depth ++ s!"subgraph n{number}[\"" ++ escapeLabel node.label ++ "\"]\n"
  | .closing depth => indent depth ++ "end\n"

theorem figuresText_eq (depth : Nat) (figures : List Figure) :
    figuresText depth figures = String.join ((Figure.strokesOf depth figures).map stroke) := by
  apply Figure.text_eq_join stroke figureText
  · exact fun _ _ _ => rfl
  · exact fun _ _ _ _ => String.append_assoc ..
  · exact fun _ => rfl
  · exact fun _ _ _ => rfl

theorem render_eq (d : Drawing) : render d = "flowchart TB\n" ++
    String.join ((Figure.strokesOf 1 d.figures).map stroke) ++ String.join (d.edges.map edgeLine) ++
      String.join (((Figure.strokesOf 1 d.figures).filterMap Stroke.declared?).map fun entry =>
        styleLine entry.2 entry.1) := by
  change _ ++ figuresText 1 d.figures ++ _ ++ String.join ((Figure.nodesOf d.figures).map _) = _
  rw [figuresText_eq, Figure.nodesOf_eq 1, List.map_map]
  rfl

end Mermaid

namespace DrawingFormat

def heading : DrawingFormat → String
  | .dot => Dot.heading
  | .mermaid => "flowchart TB\n"

def stroke : DrawingFormat → Stroke PositionedNode → String
  | .dot => Dot.stroke
  | .mermaid => Mermaid.stroke

def edgeLine : DrawingFormat → MergedEdge → String
  | .dot => Dot.edgeLine
  | .mermaid => Mermaid.edgeLine

def ending (d : Drawing) : DrawingFormat → String
  | .dot => "\x7d\n"
  | .mermaid => String.join (((Figure.strokesOf 1 d.figures).filterMap Stroke.declared?).map fun entry =>
      Mermaid.styleLine entry.2 entry.1)

theorem render_eq (format : DrawingFormat) (d : Drawing) : format.render d = format.heading ++
    String.join ((Figure.strokesOf 1 d.figures).map format.stroke) ++
      String.join (d.edges.map format.edgeLine) ++ format.ending d := by
  cases format with
  | dot => exact Dot.render_eq d
  | mermaid => exact Mermaid.render_eq d

end DrawingFormat

namespace Item

variable {f : Folding} {number : Nat} {items items' : List Item}

def isOpen (f : Folding) (x : Item) : Bool :=
  x.isFolder && f.isExpanded x.id

mutual

/-- The strokes of an item that goes by `number`, and the number that is free afterwards. -/
def trace (f : Folding) (depth number : Nat) : Item → List (Stroke Item) × Nat
  | .file name source => ([.box depth number (.file name source)], number + 1)
  | .folder id name contents =>
    if f.isExpanded id then
      let inside := traceAll f (depth + 1) (number + 1) contents
      (.opening depth number (.folder id name contents) :: (inside.1 ++ [.closing depth]), inside.2)
    else ([.box depth number (.folder id name contents)], number + 1)

def traceAll (f : Folding) (depth number : Nat) : List Item → List (Stroke Item) × Nat
  | [] => ([], number)
  | item :: items =>
    let first := item.trace f depth number
    let rest := traceAll f depth first.2 items
    (first.1 ++ rest.1, rest.2)

end

/-- Strokes that declare the given items under the numbers from `number` on, and draw those as boxes that
are not open folders. -/
structure Declares (f : Folding) (number : Nat) (items : List Item) (result : List (Stroke Item) × Nat) :
    Prop where
  next : result.2 = number + items.length
  declared : result.1.filterMap Stroke.declared? = items.zipIdx number
  boxes : result.1.countP Stroke.isBox = items.countP (!·.isOpen f)

theorem Declares.append {strokes strokes' : List (Stroke Item)} {next next' : Nat}
    (h : Declares f number items (strokes, next)) (h' : Declares f next items' (strokes', next')) :
    Declares f number (items ++ items') (strokes ++ strokes', next') := by
  obtain ⟨rfl, hd, hb⟩ := h
  obtain ⟨rfl, hd', hb'⟩ := h'
  refine ⟨?_, ?_, ?_⟩
  · simp only [List.length_append]
    omega
  · simp only at hd hd' ⊢
    rw [List.filterMap_append, hd, hd', List.zipIdx_append]
  · simp only at hb hb' ⊢
    rw [List.countP_append, hb, hb', List.countP_append]

/-- Going through the tree declares what is visible, each item before what is in it. -/
theorem declares_trace (f : Folding) :
    (∀ depth number (x : Item), Declares f number (x.shown f) (x.trace f depth number)) ∧
      ∀ depth number items, Declares f number (items.flatMap (shown f)) (traceAll f depth number items) := by
  apply trace.mutual_induct f
  · intro depth number name source
    exact ⟨rfl, rfl, rfl⟩
  · intro depth number id name contents hopen ih
    rw [trace, if_pos hopen, shown_folder, if_pos hopen]
    refine ⟨?_, ?_, ?_⟩
    · simp only [ih.next, List.length_cons]
      omega
    · simp [Stroke.declared?, ih.declared]
    · simp [Stroke.isBox, ih.boxes, isOpen, hopen]
  · intro depth number id name contents hclosed
    rw [trace, if_neg hclosed, shown_folder, if_neg hclosed]
    refine ⟨rfl, rfl, ?_⟩
    simp [Stroke.isBox, isOpen, hclosed]
  · intro depth number
    exact ⟨rfl, rfl, rfl⟩
  · intro depth number item items first ih ihs
    rw [traceAll, List.flatMap_cons]
    exact ih.append ihs

end Item

namespace FolderTree

/-- The strokes of a tree. An open root is not drawn; what it contains stands at the top. -/
def strokes (t : FolderTree) (f : Folding) : List (Stroke Item) :=
  if f.isExpanded rootId then (Item.traceAll f 1 1 t.root.display.contents).1
  else [.box 1 0 t.root.display]

/-- The items with their numbers. An open root has the number 0 without being drawn. -/
def numbering (t : FolderTree) (f : Folding) : List (Item × Nat) :=
  (if f.isExpanded rootId then [(t.root.display, 0)] else []) ++ (t.strokes f).filterMap Stroke.declared?

/-- Either the root is open, and the strokes declare what is visible in it from number 1 on, or it is all
that is visible. -/
theorem strokes_cases (t : FolderTree) (f : Folding) :
    (f.isExpanded rootId = true ∧ ∃ inside next, t.root.display.shown f = t.root.display :: inside ∧
      Item.Declares f 1 inside (t.strokes f, next)) ∨
    (f.isExpanded rootId = false ∧ t.root.display.shown f = [t.root.display] ∧
      t.strokes f = [.box 1 0 t.root.display]) := by
  rw [strokes, root, Item.display_folder, Item.shown_folder]
  cases ho : f.isExpanded rootId with
  | true => exact Or.inl ⟨rfl, _, _, rfl, (Item.declares_trace f).2 1 1 _⟩
  | false => exact Or.inr ⟨rfl, rfl, rfl⟩

/-- The number of an item is its place among what is visible. -/
theorem numbering_eq (t : FolderTree) (f : Folding) :
    t.numbering f = (t.root.display.shown f).zipIdx := by
  rw [numbering]
  rcases t.strokes_cases f with ⟨ho, inside, next, hshown, hd⟩ | ⟨ho, hshown, hs⟩
  · rw [ho, hshown, hd.declared]
    rfl
  · rw [ho, hshown, hs]
    rfl

theorem declared_strokes (t : FolderTree) (f : Folding) :
    ((t.strokes f).filterMap Stroke.declared?).map Prod.snd =
      if f.isExpanded rootId then List.range' 1 ((t.root.display.shown f).length - 1) else [0] := by
  rcases t.strokes_cases f with ⟨ho, inside, next, hshown, hd⟩ | ⟨ho, hshown, hs⟩
  · rw [ho, hshown, hd.declared, List.zipIdx_map_snd]
    rfl
  · rw [ho, hs]
    rfl

theorem isOpen_root_display (t : FolderTree) (f : Folding) :
    t.root.display.isOpen f = f.isExpanded rootId := by
  rw [Item.isOpen, Item.isFolder_display, Item.id_display]
  rfl

theorem countP_isBox_strokes (t : FolderTree) (f : Folding) :
    (t.strokes f).countP Stroke.isBox = (t.root.display.shown f).countP (!·.isOpen f) := by
  have hroot := t.isOpen_root_display f
  rcases t.strokes_cases f with ⟨ho, inside, next, hshown, hd⟩ | ⟨ho, hshown, hs⟩
  · rw [hshown, hd.boxes, List.countP_cons_of_neg (by simp [hroot, ho])]
  · rw [hshown, hs, List.countP_singleton, List.countP_singleton, hroot, ho]
    rfl

end FolderTree

end Foldergram
