import Foldergram.Proofs.Diagram.EdgeTable
import Foldergram.Proofs.Diagram.Lines
import Foldergram.Proofs.Tree.Lookup

/-!
Drawing through the list of nodes loses nothing. The nesting that a projection has flattened is found again
from the folders that its nodes name, so that the text is the one written in a walk through the tree.
-/

namespace Foldergram

theorem prefix_drop_add {α : Type} {a b l : List α} {n : Nat} (h : a ++ b <+: l.drop n) :
    b <+: l.drop (n + a.length) := by
  obtain ⟨post, hpost⟩ := h
  rw [← List.drop_drop, ← hpost, List.append_assoc, List.drop_left]
  exact List.prefix_append ..

namespace Item

variable {f : Folding} {x : Item} {id name : String} {contents items all : List Item} {number : Nat}

/-- Items one after another, each with the number that it goes by. -/
def starts (f : Folding) (number : Nat) : List Item → List (Item × Nat)
  | [] => []
  | x :: items => (x, number) :: starts f (number + (x.shown f).length) items

theorem mem_flatMap_shown (hx : x ∈ items) : x ∈ items.flatMap (shown f) := by
  obtain ⟨inside, hin⟩ := shown_eq_cons f x
  exact List.mem_flatMap.mpr ⟨x, hx, hin ▸ List.mem_cons_self ..⟩

theorem filter_zipIdx_eq_nil {ids : List String} (h : ∀ x ∈ items, x.id ∉ ids) (number : Nat) :
    (items.zipIdx number).filter (fun entry => entry.1.id ∈ ids) = [] := by
  rw [List.filter_eq_nil_iff]
  intro entry hm
  simpa using h entry.1 (List.fst_mem_of_mem_zipIdx hm)

/-- In a list of what is visible of several items, the items themselves are found by their ids. -/
theorem filter_flatMap_shown (hd : ((items.flatMap (shown f)).map Item.id).Nodup) (number : Nat) :
    ((items.flatMap (shown f)).zipIdx number).filter (fun entry => entry.1.id ∈ items.map Item.id) =
      starts f number items := by
  induction items generalizing number with
  | nil => rfl
  | cons x items ih =>
    obtain ⟨inside, hin⟩ := shown_eq_cons f x
    rw [List.flatMap_cons, List.map_append, List.nodup_append] at hd
    obtain ⟨hfirst, hrest, hapart⟩ := hd
    rw [hin, List.map_cons, List.nodup_cons] at hfirst
    have hinside : ∀ y ∈ inside, y.id ∉ (x :: items).map Item.id := by
      intro y hy hm
      rw [List.map_cons, List.mem_cons] at hm
      rcases hm with he | hm
      · exact hfirst.1 (he ▸ List.mem_map_of_mem hy)
      · obtain ⟨z, hz, he⟩ := List.mem_map.mp hm
        have hy' : y.id ∈ (x.shown f).map Item.id := by
          rw [hin]
          exact List.mem_map_of_mem (List.mem_cons_of_mem _ hy)
        exact hapart _ hy' _ (List.mem_map_of_mem (mem_flatMap_shown hz)) he.symm
    have hothers : ∀ entry ∈ (items.flatMap (shown f)).zipIdx (number + (x.shown f).length),
        (decide (entry.1.id ∈ (x :: items).map Item.id)) = decide (entry.1.id ∈ items.map Item.id) := by
      intro entry hm
      have hne : entry.1.id ≠ x.id := fun he =>
        hapart x.id (by simp [hin]) _ (List.mem_map_of_mem (List.fst_mem_of_mem_zipIdx hm)) he.symm
      simp [hne]
    rw [List.flatMap_cons, List.zipIdx_append, List.filter_append, List.filter_congr hothers, ih hrest,
      starts]
    conv => lhs; rw [hin]
    rw [List.zipIdx_cons, List.filter_cons_of_pos (by simp), filter_zipIdx_eq_nil hinside, hin]
    rfl

/-- In all that is visible, the contents of an open folder start behind the folder. -/
theorem filter_contents (hd : (all.map Item.id).Nodup) (ho : f.isExpanded id = true)
    (hw : (Item.folder id name contents).shown f <+: all.drop number) :
    all.zipIdx.filter (fun entry => entry.1.id ∈ contents.map Item.id) =
      starts f (number + 1) contents := by
  rw [shown_folder, if_pos ho] at hw
  obtain ⟨post, hpost⟩ := hw
  have hlen : (all.take number).length = number := by
    have hl := congrArg List.length hpost
    rw [List.length_append, List.length_cons, List.length_drop] at hl
    rw [List.length_take]
    omega
  have hall : all = all.take number ++
      (.folder id name contents :: (contents.flatMap (shown f) ++ post)) := by
    rw [← List.cons_append, hpost, List.take_append_drop]
  generalize all.take number = pre at hlen hall
  subst hall hlen
  have hin : ∀ i ∈ contents.map Item.id, i ∈ (contents.flatMap (shown f)).map Item.id := by
    intro i hi
    obtain ⟨x, hx, rfl⟩ := List.mem_map.mp hi
    exact List.mem_map_of_mem (mem_flatMap_shown hx)
  rw [List.map_append, List.map_cons, List.map_append, List.nodup_append, List.nodup_cons,
    List.nodup_append] at hd
  obtain ⟨-, ⟨hfolder, hinside, -, hpost⟩, hpre⟩ := hd
  rw [List.zipIdx_append, List.filter_append, List.zipIdx_cons, List.zipIdx_append]
  rw [filter_zipIdx_eq_nil, List.filter_cons_of_neg, List.filter_append, filter_flatMap_shown hinside,
    filter_zipIdx_eq_nil, Nat.zero_add, List.append_nil, List.nil_append]
  · intro x hx hm
    exact hpost _ (hin _ hm) _ (List.mem_map_of_mem hx) rfl
  · intro hm
    exact hfolder (List.mem_append_left _ (hin _ (by simpa using hm)))
  · intro x hx hm
    exact hpre _ (List.mem_map_of_mem hx) _ (List.mem_cons_of_mem _ (List.mem_append_left _ (hin _ hm))) rfl

end Item

namespace FolderTree

variable {t : FolderTree} {id name i : String} {contents : List Item}

theorem visibleIds_eq (t : FolderTree) (f : Folding) :
    t.visibleIds f = (t.root.display.shown f).map Item.id := by
  rw [visibleIds, visible, Item.shown, List.map_map]
  rfl

/-- The contents of a displayed folder are the items that have it as their parent. -/
theorem WellFormed.mem_contents_display_iff (h : t.WellFormed)
    (hm : Item.folder id name contents ∈ t.root.display.all) :
    i ∈ contents.map Item.id ↔ t.parent? i = some id := by
  obtain ⟨y, hy, he⟩ := List.mem_map.mp ((Item.all_display_perm t.root).mem_iff.mp hm)
  cases y with
  | file name source => simp at he
  | folder id' name' contents' =>
    obtain ⟨rfl, -, rfl⟩ : id' = id ∧ name' = name ∧
      Item.displayOrder (contents'.map Item.display) = contents := by simpa using he
    rw [((Item.displayOrder_perm _).map Item.id).mem_iff, Item.map_id_display]
    exact h.mem_contents_iff hy

/-- For each ordered pair of items on screen that are connected, one edge, by their numbers. -/
def drawnEdges (t : FolderTree) (edges : List Dependency) (f : Folding) : List MergedEdge :=
  edgeTable ((t.numbering f).map fun (x, number) => (x.id, number)) fun u v =>
    edges.countP (drawnEnds t f · = some (u, v))

theorem map_id_numbering (t : FolderTree) (f : Folding) :
    ((t.numbering f).map fun (x, number) => (x.id, number)) = (t.visibleIds f).zipIdx := by
  rw [numbering_eq, visibleIds_eq, List.zipIdx_map]
  rfl

end FolderTree

theorem Projection.topLevel_of_cons {p : Projection} {root : PositionedNode} {nodes : List PositionedNode}
    (h : p.nodes = root :: nodes) (f : Folding) :
    p.topLevel f = if isCluster f root then p.childrenOf root.id else [(root, 0)] := by
  rw [topLevel, h]

namespace Canvas

variable {c : Canvas} {f : Folding} {id name : String} {x : Item} {contents : List Item} {number : Nat}

/-- The node that stands for an item. -/
def nodeOf (c : Canvas) (edges : List Dependency) (f : Folding) (x : Item) : PositionedNode :=
  c.node (externalIds (c.project edges f).edges) x (c.tree.parent? x.id)

theorem id_nodeOf (c : Canvas) (edges : List Dependency) (f : Folding) (x : Item) :
    (c.nodeOf edges f x).id = x.id := rfl

theorem isCluster_nodeOf (c : Canvas) (edges : List Dependency) (f : Folding) (x : Item) :
    Projection.isCluster f (c.nodeOf edges f x) = x.isOpen f := by
  cases x <;> simp [Projection.isCluster, nodeOf, node, Item.isOpen]

theorem nodes_project (h : c.tree.WellFormed) (edges : List Dependency) (f : Folding) :
    (c.project edges f).nodes = (c.tree.root.display.shown f).map (c.nodeOf edges f) := by
  rw [Item.shown, List.map_map]
  apply List.map_congr_left
  rintro ⟨x, folder⟩ hv
  obtain ⟨chain, hp, -, rfl⟩ := Item.mem_visible_iff.mp hv
  obtain ⟨y, hy, rfl⟩ := hp.of_display
  have hparent : c.tree.parent? y.display.id = chain.head?.or none := by
    rw [Item.id_display, ← FolderTree.head?_ancestors, h.ancestors_eq hy, Option.or_none]
  simp only [Function.comp_apply, nodeOf, hparent]
  rfl

/-- The nodes that name an open folder are its contents, at the positions where these start. -/
theorem childrenOf_project (h : c.tree.WellFormed) (edges : List Dependency)
    (hm : Item.folder id name contents ∈ c.tree.root.display.all) (ho : f.isExpanded id = true)
    (hw : (Item.folder id name contents).shown f <+: (c.tree.root.display.shown f).drop number) :
    (c.project edges f).childrenOf id =
      (Item.starts f (number + 1) contents).map fun (x, k) => (c.nodeOf edges f x, k) := by
  have hd : ((c.tree.root.display.shown f).map Item.id).Nodup := by
    rw [← FolderTree.visibleIds_eq]
    exact h.visibleIds_nodup f
  rw [Projection.childrenOf, nodes_project h, List.zipIdx_map, List.filter_map,
    ← Item.filter_contents hd ho hw]
  refine congrArg _ (List.filter_congr ?_)
  intro entry _
  rw [decide_eq_decide.mpr (h.mem_contents_display_iff hm)]
  rfl

/-- The figures of numbered items. -/
def figuresOf (c : Canvas) (edges : List Dependency) (f : Folding) (levels : Nat)
    (entries : List (Item × Nat)) : List Figure :=
  entries.map fun (x, number) => (c.project edges f).figure f levels (c.nodeOf edges f x, number)

theorem figuresOf_box (edges : List Dependency) (hc : x.isOpen f = false) (levels number : Nat) :
    c.figuresOf edges f (levels + 1) [(x, number)] = [.box number (c.nodeOf edges f x)] := by
  simp [figuresOf, Projection.figure, isCluster_nodeOf, hc]

theorem figuresOf_cluster (h : c.tree.WellFormed) (edges : List Dependency)
    (hm : Item.folder id name contents ∈ c.tree.root.display.all) (ho : f.isExpanded id = true)
    (hw : (Item.folder id name contents).shown f <+: (c.tree.root.display.shown f).drop number)
    (levels : Nat) : c.figuresOf edges f (levels + 1) [(.folder id name contents, number)] =
      [.cluster number (c.nodeOf edges f (.folder id name contents))
        (c.figuresOf edges f levels (Item.starts f (number + 1) contents))] := by
  have hopen : (Item.folder id name contents).isOpen f = true := ho
  simp only [figuresOf, List.map_cons, List.map_nil, Projection.figure, isCluster_nodeOf, hopen, if_true]
  rw [id_nodeOf, Item.id_folder, childrenOf_project h edges hm ho hw, List.map_map]
  rfl

theorem figuresOf_cons (edges : List Dependency) (f : Folding) (levels : Nat) (entry : Item × Nat)
    (entries : List (Item × Nat)) : c.figuresOf edges f levels (entry :: entries) =
      c.figuresOf edges f levels [entry] ++ c.figuresOf edges f levels entries := rfl

/-- The figure of an item that stands in its place has the strokes of the item. Each level of figures uses up
at least one of the visible items, so there are levels enough. -/
theorem strokesOf_figuresOf (h : c.tree.WellFormed) (edges : List Dependency) (f : Folding) :
    (∀ depth number (x : Item), x ∈ c.tree.root.display.all →
      x.shown f <+: (c.tree.root.display.shown f).drop number →
      ∀ levels, (x.shown f).length ≤ levels →
        Figure.strokesOf depth (c.figuresOf edges f levels [(x, number)]) =
          (x.trace f depth number).1.map (Stroke.map (c.nodeOf edges f))) ∧
    ∀ depth number items, (∀ x ∈ items, x ∈ c.tree.root.display.all) →
      items.flatMap (Item.shown f) <+: (c.tree.root.display.shown f).drop number →
      ∀ levels, (items.flatMap (Item.shown f)).length ≤ levels →
        Figure.strokesOf depth (c.figuresOf edges f levels (Item.starts f number items)) =
          (Item.traceAll f depth number items).1.map (Stroke.map (c.nodeOf edges f)) := by
  have hpos : ∀ {x : Item} {levels}, (x.shown f).length ≤ levels → ∃ k, levels = k + 1 := by
    intro x levels hl
    obtain ⟨inside, hin⟩ := Item.shown_eq_cons f x
    rw [hin, List.length_cons] at hl
    exact ⟨levels - 1, by omega⟩
  apply Item.trace.mutual_induct f
  · intro depth number name source _ _ levels hl
    obtain ⟨levels, rfl⟩ := hpos hl
    rw [figuresOf_box edges rfl]
    rfl
  · intro depth number id name contents ho ih hm hw levels hl
    obtain ⟨levels, rfl⟩ := hpos hl
    rw [figuresOf_cluster h edges hm ho hw]
    rw [Item.shown_folder, if_pos ho] at hw hl
    have hnext : contents.flatMap (Item.shown f) <+: (c.tree.root.display.shown f).drop (number + 1) :=
      prefix_drop_add (a := [Item.folder id name contents]) hw
    have hinside := ih (Item.contents_mem_all hm) hnext levels (Nat.le_of_succ_le_succ hl)
    rw [Figure.strokesOf, Figure.strokesOf, Figure.strokes, hinside, Item.trace, if_pos ho]
    simp [Stroke.map]
  · intro depth number id name contents hc _ _ levels hl
    obtain ⟨levels, rfl⟩ := hpos hl
    have hbox : (Item.folder id name contents).isOpen f = false := by simpa [Item.isOpen] using hc
    rw [figuresOf_box edges hbox, Item.trace, if_neg hc]
    rfl
  · intro depth number _ _ levels _
    rfl
  · intro depth number item items first ih ihs hm hw levels hl
    have hnext : first.2 = number + (item.shown f).length := ((Item.declares_trace f).1 ..).next
    rw [hnext] at ihs
    rw [List.flatMap_cons] at hw hl
    rw [List.length_append] at hl
    obtain ⟨hitem, hitems⟩ := List.forall_mem_cons.mp hm
    have hfirst := ih hitem ((List.prefix_append ..).trans hw) levels (by omega)
    have hrest := ihs hitems (prefix_drop_add hw) levels (by omega)
    rw [Item.starts, figuresOf_cons, Figure.strokesOf_append, hfirst, hrest, Item.traceAll,
      List.map_append, ← hnext]

/-- The figures of a drawing are written as the strokes of the tree. -/
theorem strokesOf_drawing (h : c.tree.WellFormed) (edges : List Dependency) (f : Folding) :
    Figure.strokesOf 1 ((c.project edges f).drawing f).figures =
      (c.tree.strokes f).map (Stroke.map (c.nodeOf edges f)) := by
  obtain ⟨contents, htop⟩ : ∃ contents, c.tree.root.display = .folder rootId rootName contents :=
    ⟨_, Item.display_folder ..⟩
  have hm : Item.folder rootId rootName contents ∈ c.tree.root.display.all :=
    htop ▸ Item.mem_all_self c.tree.root.display
  have hw : (Item.folder rootId rootName contents).shown f <+: (c.tree.root.display.shown f).drop 0 :=
    htop ▸ List.prefix_rfl
  have hlen : (c.project edges f).nodes.length =
      ((Item.folder rootId rootName contents).shown f).length := by
    rw [nodes_project h, List.length_map, htop]
  obtain ⟨inside, hshown⟩ := Item.shown_eq_cons f (.folder rootId rootName contents)
  have hnodes : (c.project edges f).nodes =
      c.nodeOf edges f (.folder rootId rootName contents) :: inside.map (c.nodeOf edges f) := by
    rw [nodes_project h, htop, hshown, List.map_cons]
  rw [Projection.drawing, Projection.topLevel_of_cons hnodes, isCluster_nodeOf, hlen, FolderTree.strokes,
    htop]
  cases ho : f.isExpanded rootId with
  | true =>
    have hopen : (Item.folder rootId rootName contents).isOpen f = true := ho
    have hchildren := childrenOf_project h edges hm ho hw
    rw [Item.shown_folder, if_pos ho] at hw ⊢
    have hinside := (strokesOf_figuresOf h edges f).2 1 1 contents (Item.contents_mem_all hm)
      (prefix_drop_add (a := [Item.folder rootId rootName contents]) hw) _ (Nat.le_succ _)
    rw [if_pos hopen, id_nodeOf, Item.id_folder, hchildren, List.map_map]
    exact hinside
  | false =>
    have hclosed : (Item.folder rootId rootName contents).isOpen f = false := ho
    have hbox := (strokesOf_figuresOf h edges f).1 1 0 _ hm hw _ (Nat.le_refl _)
    rw [Item.trace, if_neg (by simp [ho])] at hbox
    rw [hclosed]
    exact hbox

theorem declared_drawing (h : c.tree.WellFormed) (edges : List Dependency) (f : Folding) :
    (Figure.strokesOf 1 ((c.project edges f).drawing f).figures).filterMap Stroke.declared? =
      ((c.tree.strokes f).filterMap Stroke.declared?).map fun entry =>
        (c.nodeOf edges f entry.1, entry.2) := by
  rw [strokesOf_drawing h, List.filterMap_map, List.map_filterMap]
  exact congrArg (List.filterMap · _) (funext fun s => s.declared?_map _)

/-- The lines of a drawing, found by going through the tree once: those of the strokes, then the edges, and
in a Mermaid chart the colours of all that has been declared. -/
def tracing (c : Canvas) (edges : List Dependency) (f : Folding) (format : DrawingFormat) : List Line :=
  format.firstLines ++ (c.tree.strokes f).flatMap (format.strokeLines c) ++
    (c.tree.drawnEdges edges f).map format.lineOf ++
    format.lastLines c ((c.tree.strokes f).filterMap Stroke.declared?)

theorem mergedEdges_project (h : c.tree.WellFormed) (edges : List Dependency) (f : Folding) :
    (c.project edges f).mergedEdges = c.tree.drawnEdges edges f := by
  rw [FolderTree.drawnEdges, FolderTree.map_id_numbering]
  exact h.mergedEdges_eq edges f

/-- An edge is drawn between the positions of two items if dependencies lead from one to the other, and it
counts them. -/
theorem mem_drawnEdges (edges : List Dependency) (f : Folding) (m : MergedEdge) :
    m ∈ c.tree.drawnEdges edges f ↔ ∃ u v, (c.project edges f).ids[m.source]? = some u ∧
      (c.project edges f).ids[m.target]? = some v ∧ u ≠ v ∧ 0 < m.count ∧
      m.count = edges.countP (drawnEnds c.tree f · = some (u, v)) := by
  rw [FolderTree.drawnEdges, FolderTree.map_id_numbering, mem_edgeTable, project_ids]
  simp only [List.mem_zipIdx_iff_getElem?]

theorem ending_drawing (h : c.tree.WellFormed) (edges : List Dependency) (f : Folding)
    (format : DrawingFormat) : format.ending ((c.project edges f).drawing f) =
      Line.printAll (format.lastLines c ((c.tree.strokes f).filterMap Stroke.declared?)) := by
  cases format with
  | dot =>
    change "\x7d\n" = Line.printAll [⟨0, "\x7d", .plain⟩]
    decide +kernel
  | mermaid =>
    rw [DrawingFormat.ending, declared_drawing h, List.map_map, DrawingFormat.lastLines, Line.printAll,
      List.map_map]
    refine congrArg String.join (List.map_congr_left ?_)
    intro entry _
    exact Mermaid.styleLine_eq

theorem render_drawing (h : c.tree.WellFormed) (edges : List Dependency) (f : Folding)
    (format : DrawingFormat) :
    format.render ((c.project edges f).drawing f) = Line.printAll (c.tracing edges f format) := by
  have hstrokes : String.join (((c.tree.strokes f).map (Stroke.map (c.nodeOf edges f))).map format.stroke) =
      Line.printAll ((c.tree.strokes f).flatMap (format.strokeLines c)) := by
    rw [List.map_map]
    exact Line.join_map_eq fun s _ => format.stroke_eq s
  have hedges : String.join ((c.tree.drawnEdges edges f).map format.edgeLine) =
      Line.printAll ((c.tree.drawnEdges edges f).map format.lineOf) := by
    rw [Line.printAll, List.map_map]
    refine congrArg String.join (List.map_congr_left ?_)
    intro e he
    obtain ⟨-, -, -, -, -, hpos, -⟩ := (mem_drawnEdges edges f e).mp he
    exact format.edgeLine_eq hpos
  have hmerged : ((c.project edges f).drawing f).edges = c.tree.drawnEdges edges f :=
    mergedEdges_project h edges f
  rw [format.render_eq, format.heading_eq, strokesOf_drawing h, hstrokes, hmerged, hedges,
    ending_drawing h, tracing, Line.printAll_append, Line.printAll_append, Line.printAll_append]

theorem tells_tracing (c : Canvas) (edges : List Dependency) (f : Folding) (format : DrawingFormat) :
    Line.Tells (c.tracing edges f format) ((c.tree.strokes f).countP Stroke.isBox)
      (((c.tree.strokes f).filterMap Stroke.declared?).map Prod.snd) (c.tree.drawnEdges edges f)
      (if format = .mermaid then ((c.tree.strokes f).filterMap Stroke.declared?).map Prod.snd else []) := by
  have h := ((format.tells_firstLines.append (format.tells_strokes c (c.tree.strokes f))).append
    (format.tells_edges (c.tree.drawnEdges edges f))).append
      (format.tells_lastLines c ((c.tree.strokes f).filterMap Stroke.declared?))
  simpa [tracing] using h

theorem nodeCount_exportAs (h : c.tree.WellFormed) (edges : List Dependency) (f : Folding)
    (format : DrawingFormat) : ((c.project edges f).exportAs f format).nodeCount =
      (c.tree.strokes f).countP Stroke.isBox := by
  rw [FolderTree.countP_isBox_strokes]
  simp only [Projection.exportAs]
  rw [nodes_project h, List.countP_map]
  simp only [Function.comp_def, isCluster_nodeOf]

end Canvas

variable {c : Canvas} {files : List SourceFile}

/-- An export is what is written by going through the tree once, in display order. Each open folder is drawn
around its contents and all else as a box, and the edges follow in the order of the numbers of their ends,
one for each pair, with their count. The number of an item is its position on screen, and the items are
declared in this order, each once, except for a root that is open; a Mermaid chart colours them in the same
order. The count of nodes is that of the lines for boxes. -/
theorem exportAs_eq_tracing (hb : FolderTree.build files = .ok c.tree) (edges : List Dependency)
    (f : Folding) :
    (∀ format,
      let lines := c.tracing edges f format
      ((c.project edges f).exportAs f format).content = Line.printAll lines ∧
      ((c.project edges f).exportAs f format).nodeCount = lines.countP Line.isBox ∧
      ((c.project edges f).exportAs f format).edgeCount = lines.countP Line.isEdge ∧
      lines.filterMap Line.edge? = c.tree.drawnEdges edges f ∧
      lines.filterMap Line.declared? =
        (if f.isExpanded rootId then List.range' 1 ((c.project edges f).nodes.length - 1) else [0]) ∧
      lines.filterMap Line.styled? = if format = .mermaid then lines.filterMap Line.declared? else []) ∧
    Ordered (c.tree.drawnEdges edges f) ∧
    (∀ m, m ∈ c.tree.drawnEdges edges f ↔ ∃ u v, (c.project edges f).ids[m.source]? = some u ∧
      (c.project edges f).ids[m.target]? = some v ∧ u ≠ v ∧ 0 < m.count ∧
      m.count = edges.countP (drawnEnds c.tree f · = some (u, v))) ∧
    ((c.tree.numbering f).map fun (x, number) => (x.id, number)) = (c.project edges f).ids.zipIdx := by
  have h := (FolderTree.wellFormed_build hb).1
  have hmerged := Canvas.mergedEdges_project h edges f
  refine ⟨fun format => ?_, ?_, Canvas.mem_drawnEdges edges f, ?_⟩
  · have htells := c.tells_tracing edges f format
    refine ⟨Canvas.render_drawing h edges f format, ?_, ?_, htells.edges, ?_, ?_⟩
    · rw [Canvas.nodeCount_exportAs h, htells.boxes]
    · rw [htells.edgeLines]
      exact congrArg List.length hmerged
    · rw [htells.declared, FolderTree.declared_strokes, Canvas.nodes_project h, List.length_map]
    · rw [htells.styled, htells.declared]
  · rw [FolderTree.drawnEdges, FolderTree.map_id_numbering]
    exact ordered_edgeTable (pairwise_zipIdx _)
  · rw [project_ids, FolderTree.map_id_numbering]

theorem exportAs_eq_tracing_nested :
    let f := Folding.empty.set "a/b" false
    let c : Canvas := { tree := FolderTree.nested }
    let edges : List Dependency := [⟨"e", "a/b/c"⟩, ⟨"a/d", "a/b/c"⟩, ⟨"e", "a/b"⟩, ⟨"a/b/c", "a/b"⟩]
    FolderTree.build FolderTree.nestedFiles = .ok c.tree ∧
      ((c.project edges f).exportAs f .mermaid).content =
        "flowchart TB\n" ++
        "    subgraph n1[\"a\"]\n" ++
        "        n2[[\"b\"]]\n" ++
        "        n3[\"d\"]\n" ++
        "    end\n" ++
        "    n4[\"e\"]\n" ++
        "    n3 --> n2\n" ++
        "    n4 -->|\"2 dependencies\"| n2\n" ++
        "    style n1 fill:\n" ++
        "    style n2 fill:\n" ++
        "    style n3 fill:\n" ++
        "    style n4 fill:\n" ∧
      ∀ format, ((c.project edges f).exportAs f format).nodeCount = 3 ∧
        (c.tracing edges f format).filterMap Line.edge? = [⟨3, 2, 1⟩, ⟨4, 2, 2⟩] := by
  intro f c edges
  obtain ⟨hexport, -, -, -⟩ := exportAs_eq_tracing (c := c) FolderTree.build_nestedFiles edges f
  have hdisplay : c.tree.root.display = c.tree.root := FolderTree.display_nested
  have hlines : ∀ format, c.tracing edges f format = format.firstLines ++
      (Item.traceAll f 1 1 c.tree.root.contents).1.flatMap (format.strokeLines c) ++
      [⟨3, 2, 1⟩, ⟨4, 2, 2⟩].map format.lineOf ++ format.lastLines c
        ((Item.traceAll f 1 1 c.tree.root.contents).1.filterMap Stroke.declared?) := by
    intro format
    have hedges : c.tree.drawnEdges edges f = [⟨3, 2, 1⟩, ⟨4, 2, 2⟩] := by
      rw [FolderTree.drawnEdges, FolderTree.numbering, FolderTree.strokes, hdisplay]
      decide +kernel
    rw [Canvas.tracing, hedges, FolderTree.strokes, hdisplay]
    rfl
  refine ⟨FolderTree.build_nestedFiles, ?_, fun format => ⟨?_, ?_⟩⟩
  · rw [(hexport .mermaid).1, hlines]
    decide +kernel
  · rw [(hexport format).2.1, hlines]
    cases format <;> decide +kernel
  · rw [hlines]
    cases format <;> decide +kernel

end Foldergram
