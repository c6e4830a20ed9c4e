import Foldergram.Proofs.Diagram.Conservation
import Foldergram.Proofs.Diagram.Tracing

/-!
The names at the ends of edges. An edge line names its ends by their positions on screen, whatever is drawn
there. A box introduces the name of its position, and in a Mermaid chart a cluster does so too; but a cluster
in DOT goes by a name of its own, and an open root is not drawn at all. An edge to such a folder names a node
that the text does not declare.
-/

namespace Foldergram

namespace DrawingFormat

/-- A text that starts by introducing the name of the position `k`. -/
def Introduces (k : Nat) (text : String) : DrawingFormat → Prop
  | .dot => ∃ depth, (indent depth ++ s!"n{k} [").toList <+: text.toList
  | .mermaid => ∃ depth, (indent depth ++ s!"n{k}[").toList <+: text.toList ∨
      (indent depth ++ s!"subgraph n{k}[").toList <+: text.toList

/-- The drawing of the node at position `k` introduces its name. -/
def Declared (format : DrawingFormat) (strokes : List (Stroke PositionedNode)) (k : Nat)
    (node : PositionedNode) : Prop :=
  ∃ s ∈ strokes, s.declared? = some (node, k) ∧ format.Introduces k (format.stroke s)

/-- A node that does not get the name of its position: in DOT an open folder, else only an open root. -/
def Nameless (format : DrawingFormat) (f : Folding) (node : PositionedNode) : Prop :=
  Projection.isCluster f node = true ∧ (format = .dot ∨ node.id = rootId)

instance (format : DrawingFormat) (f : Folding) (node : PositionedNode) :
    Decidable (format.Nameless f node) :=
  inferInstanceAs (Decidable (_ ∧ _))

/-- Behind blanks, texts that start alike have the same first character. -/
theorem head_eq_of_blanks {m n : Nat} {a b : Char} {as bs : List Char} (ha : a ≠ ' ') (hb : b ≠ ' ')
    (h : List.replicate m ' ' ++ a :: as <+: List.replicate n ' ' ++ b :: bs) : a = b := by
  obtain ⟨rest, hrest⟩ := h
  have hskip : ∀ n (l : List Char),
      (List.replicate n ' ' ++ l).dropWhile (· = ' ') = l.dropWhile (· = ' ') := by
    intro n l
    exact List.dropWhile_append_of_pos (by simp)
  have hdrop := congrArg (List.dropWhile (· = ' ')) hrest
  rw [List.append_assoc, hskip, hskip] at hdrop
  simp only [List.cons_append, List.dropWhile_cons, decide_eq_true_eq, ha, hb, if_false] at hdrop
  exact (List.cons.inj hdrop).1

theorem introduces_box (format : DrawingFormat) (depth k : Nat) (node : PositionedNode) :
    format.Introduces k (format.stroke (.box depth k node)) := by
  cases format with
  | dot =>
    refine ⟨depth, ?_⟩
    simp only [stroke, Dot.stroke, Dot.boxLine, String.append_assoc, String.toList_append,
      List.prefix_append_right_inj]
    exact List.IsPrefix.trans (by decide) (List.prefix_append ..)
  | mermaid =>
    refine ⟨depth, Or.inl ?_⟩
    rw [stroke, Mermaid.stroke, Mermaid.boxLine]
    cases node.kind <;>
    · simp only [String.append_assoc, String.toList_append, List.prefix_append_right_inj]
      exact List.IsPrefix.trans (by decide) (List.prefix_append ..)

theorem introduces_opening_iff (format : DrawingFormat) (depth k : Nat) (node : PositionedNode) :
    format.Introduces k (format.stroke (.opening depth k node)) ↔ format = .mermaid := by
  cases format with
  | dot =>
    refine ⟨fun ⟨depth', h⟩ => ?_, fun h => by cases h⟩
    simp only [stroke, Dot.stroke, Dot.clusterHead, indent, String.append_assoc, String.toList_append,
      String.toList_ofList] at h
    exact absurd (head_eq_of_blanks (by decide) (by decide) h) (by decide)
  | mermaid =>
    refine iff_of_true ⟨depth, Or.inr ?_⟩ rfl
    simp only [stroke, Mermaid.stroke, String.append_assoc, String.toList_append,
      List.prefix_append_right_inj]
    exact List.IsPrefix.trans (by decide) (List.prefix_append ..)

/-- Of the strokes that draw a node, a box introduces its name in any format. -/
theorem introduces_iff {format : DrawingFormat} {s : Stroke PositionedNode} {node : PositionedNode} {k : Nat}
    (h : s.declared? = some (node, k)) :
    format.Introduces k (format.stroke s) ↔ s.isBox = true ∨ format = .mermaid := by
  cases s with
  | box depth number content =>
    cases h
    exact iff_of_true (format.introduces_box ..) (Or.inl rfl)
  | opening depth number content =>
    cases h
    rw [introduces_opening_iff]
    simp [Stroke.isBox]
  | closing depth => cases h

end DrawingFormat

/-- A stroke that draws an open folder around its contents and anything else as a box. -/
def Stroke.Suits (f : Folding) (s : Stroke Item) : Prop :=
  ∀ x k, s.declared? = some (x, k) → s.isBox = !x.isOpen f

theorem Item.suits_trace (f : Folding) :
    (∀ depth number (x : Item), ∀ s ∈ (x.trace f depth number).1, s.Suits f) ∧
      ∀ depth number items, ∀ s ∈ (traceAll f depth number items).1, s.Suits f := by
  apply trace.mutual_induct f
  · intro depth number name source s hs
    obtain rfl := List.mem_singleton.mp hs
    rintro _ _ ⟨⟩
    rfl
  · intro depth number id name contents hopen ih s hs
    rw [trace, if_pos hopen, List.mem_cons, List.mem_append, List.mem_singleton] at hs
    rcases hs with rfl | hs | rfl
    · rintro _ _ ⟨⟩
      simp [Stroke.isBox, isOpen, hopen]
    · exact ih s hs
    · rintro _ _ ⟨⟩
  · intro depth number id name contents hclosed s hs
    rw [trace, if_neg hclosed] at hs
    obtain rfl := List.mem_singleton.mp hs
    rintro _ _ ⟨⟩
    simp [Stroke.isBox, isOpen, hclosed]
  · intro depth number s hs
    cases hs
  · intro depth number item items first ih ihs s hs
    rw [traceAll, List.mem_append] at hs
    exact hs.elim (ih s) (ihs s)

namespace FolderTree

variable {t : FolderTree} {f : Folding} {x : Item} {k : Nat}

theorem suits_of_mem_strokes {s : Stroke Item} (hs : s ∈ t.strokes f) : s.Suits f := by
  rw [strokes] at hs
  split at hs
  · exact (Item.suits_trace f).2 _ _ _ s hs
  · rename_i hclosed
    obtain rfl := List.mem_singleton.mp hs
    rintro _ _ ⟨⟩
    simp [Stroke.isBox, isOpen_root_display, hclosed]

theorem mem_numbering : (x, k) ∈ t.numbering f ↔ (t.root.display.shown f)[k]? = some x := by
  rw [numbering_eq, List.mem_zipIdx_iff_getElem?]

theorem getElem?_of_declared (h : (x, k) ∈ (t.strokes f).filterMap Stroke.declared?) :
    (t.root.display.shown f)[k]? = some x :=
  mem_numbering.mp (List.mem_append_right _ h)

/-- All that is on screen is declared, but for an open root. -/
theorem mem_declared_iff (hx : (t.root.display.shown f)[k]? = some x) :
    (x, k) ∈ (t.strokes f).filterMap Stroke.declared? ↔ ¬ (k = 0 ∧ f.isExpanded rootId = true) := by
  constructor
  · rintro hm ⟨rfl, hopen⟩
    have hk := List.mem_map_of_mem (f := Prod.snd) hm
    rw [declared_strokes, if_pos hopen, List.mem_range'_1] at hk
    omega
  · intro hne
    rw [← mem_numbering, numbering, List.mem_append] at hx
    rcases hx with hx | hx
    · split at hx
      · rename_i hopen
        cases List.mem_singleton.mp hx
        exact absurd ⟨rfl, hopen⟩ hne
      · cases hx
    · exact hx

/-- The open root is the open folder with the root's id: it stands at the first position. -/
theorem WellFormed.first_open_iff (h : t.WellFormed) (hx : (t.root.display.shown f)[k]? = some x) :
    (k = 0 ∧ f.isExpanded rootId = true) ↔ x.isOpen f = true ∧ x.id = rootId := by
  obtain ⟨inside, hin⟩ := Item.shown_eq_cons f t.root.display
  have hroot : (t.root.display.shown f)[0]? = some t.root.display := by rw [hin, List.getElem?_cons_zero]
  have hid : t.root.display.id = rootId := Item.id_display t.root
  constructor
  · rintro ⟨rfl, hopen⟩
    obtain rfl := Option.some.inj (hroot.symm.trans hx)
    exact ⟨(t.isOpen_root_display f).trans hopen, hid⟩
  · rintro ⟨hopen, hxid⟩
    have hd : ((t.root.display.shown f).map Item.id).Nodup := by
      rw [← visibleIds_eq]
      exact h.visibleIds_nodup f
    have hlt : 0 < ((t.root.display.shown f).map Item.id).length := by rw [hin]; simp
    have hk : 0 = k := by
      apply (List.getElem?_inj hlt hd).mp
      rw [List.getElem?_map, List.getElem?_map, hroot, hx, Option.map_some, Option.map_some, hid, hxid]
    rw [Item.isOpen, Bool.and_eq_true, hxid] at hopen
    exact ⟨hk.symm, hopen.2⟩

end FolderTree

namespace Canvas

variable {c : Canvas} {edges : List Dependency} {f : Folding} {k : Nat} {node : PositionedNode}

/-- The drawing of a node introduces the name of its position, unless the node is left nameless. -/
theorem declared_iff (h : c.tree.WellFormed) (format : DrawingFormat)
    (hn : (c.project edges f).nodes[k]? = some node) :
    format.Declared (Figure.strokesOf 1 ((c.project edges f).drawing f).figures) k node ↔
      ¬ format.Nameless f node := by
  rw [nodes_project h, List.getElem?_map, Option.map_eq_some_iff] at hn
  obtain ⟨x, hx, rfl⟩ := hn
  rw [strokesOf_drawing h, DrawingFormat.Nameless, isCluster_nodeOf, id_nodeOf]
  constructor
  · rintro ⟨s', hs', hdeclared, hintro⟩ ⟨hopen, hwhy⟩
    obtain ⟨s, hs, rfl⟩ := List.mem_map.mp hs'
    rw [Stroke.declared?_map, Option.map_eq_some_iff] at hdeclared
    obtain ⟨⟨y, k'⟩, hy, he⟩ := hdeclared
    obtain rfl : k' = k := (Prod.mk.inj he).2
    have hm := List.mem_filterMap.mpr ⟨s, hs, hy⟩
    obtain rfl := Option.some.inj (hx.symm.trans (FolderTree.getElem?_of_declared hm))
    have hbox : s.isBox = false := by rw [FolderTree.suits_of_mem_strokes hs _ _ hy, hopen]; rfl
    rw [DrawingFormat.introduces_iff (Stroke.declared?_map_of_some _ hy), Stroke.isBox_map, hbox] at hintro
    rcases hwhy with rfl | hid
    · simp at hintro
    · exact (FolderTree.mem_declared_iff hx).mp hm ((h.first_open_iff hx).mpr ⟨hopen, hid⟩)
  · intro hnamed
    have hm : (x, k) ∈ (c.tree.strokes f).filterMap Stroke.declared? := by
      rw [FolderTree.mem_declared_iff hx, h.first_open_iff hx]
      exact fun ⟨hopen, hid⟩ => hnamed ⟨hopen, Or.inr hid⟩
    obtain ⟨s, hs, hdeclared⟩ := List.mem_filterMap.mp hm
    have hmapped := Stroke.declared?_map_of_some (c.nodeOf edges f) hdeclared
    refine ⟨_, List.mem_map_of_mem hs, hmapped, (DrawingFormat.introduces_iff hmapped).mpr ?_⟩
    rw [Stroke.isBox_map, FolderTree.suits_of_mem_strokes hs _ _ hdeclared]
    cases hopen : x.isOpen f with
    | true =>
      cases format with
      | dot => exact absurd ⟨hopen, Or.inl rfl⟩ hnamed
      | mermaid => exact Or.inr rfl
    | false => exact Or.inl rfl

end Canvas

/-- Edge lines end at the positions at which drawn edges end. -/
theorem Projection.Sound.end_iff {p : Projection} (h : p.Sound) {k : Nat} :
    (∃ m ∈ p.mergedEdges, k = m.source ∨ k = m.target) ↔
      ∃ e ∈ p.activeEdges, p.ids[k]? = some e.sourceVisible ∨ p.ids[k]? = some e.targetVisible := by
  constructor
  · rintro ⟨m, hm, hk⟩
    rw [h.mergedEdges_eq_edgeTable, mem_edgeTable] at hm
    obtain ⟨u, v, hu, hv, -, hpos, hcount⟩ := hm
    rw [List.mem_zipIdx_iff_getElem?] at hu hv
    obtain ⟨e, he, hends⟩ := List.mem_map.mp (List.count_pos_iff.mp (hcount ▸ hpos))
    obtain ⟨rfl, rfl⟩ := Prod.mk.inj hends
    rcases hk with rfl | rfl
    · exact ⟨e, he, Or.inl hu⟩
    · exact ⟨e, he, Or.inr hv⟩
  · rintro ⟨e, he, hk⟩
    obtain ⟨⟨i, j⟩, hat⟩ := h.exists_positions? (List.mem_map_of_mem he)
    obtain ⟨hi, hj⟩ := positions?_eq_some.mp hat
    rw [position?_eq_some_iff h.distinct, List.mem_zipIdx_iff_getElem?] at hi hj
    have hpos : 0 < p.activeEdges.countP fun e' =>
        e'.sourceVisible = e.sourceVisible ∧ e'.targetVisible = e.targetVisible :=
      List.countP_pos_iff.mpr ⟨e, he, decide_eq_true ⟨rfl, rfl⟩⟩
    refine ⟨_, (h.mem_mergedEdges hi hj _).mpr ⟨hpos, rfl⟩, ?_⟩
    have hunique : ∀ {u : String} {k i : Nat}, p.ids[k]? = some u → p.ids[i]? = some u → k = i := by
      intro u k i hk hi
      obtain ⟨hlt, -⟩ := List.getElem?_eq_some_iff.mp hk
      exact (List.getElem?_inj hlt h.distinct).mp (hk.trans hi.symm)
    exact hk.imp (fun hk => hunique hk hi) (fun hk => hunique hk hj)

/-- An edge ends at an open folder only if the dependency itself names that folder. -/
theorem id_eq_of_isCluster {c : Canvas} {edges : List Dependency} {f : Folding} {e : RoutedEdge}
    {node : PositionedNode} (h : c.tree.WellFormed) (he : e ∈ (c.project edges f).edges)
    (hn : Projection.isCluster f node = true) :
    (node.id = e.sourceVisible → node.id = e.source) ∧ (node.id = e.targetVisible → node.id = e.target) := by
  obtain ⟨d, -, ordinal, hr⟩ := exists_route_of_mem_edges he
  obtain ⟨hs, ht, hsv, htv⟩ := route_eq_ok hr
  rw [Projection.isCluster, Bool.and_eq_true] at hn
  have hopen : f.isCollapsed node.id = false := by simpa [Folding.isExpanded] using hn.2
  have hself : ∀ {id}, id ∈ c.tree.items.map Item.id →
      node.id = visibleAncestor c.tree.upwardLinks f id → node.id = id := by
    intro id hid he
    rcases h.visibleAncestor_eq_self_or_closed (f := f) hid with hv | ⟨-, hclosed⟩
    · exact he.trans hv
    · rw [← he, hopen] at hclosed
      cases hclosed
  exact ⟨fun he => hself hs (he.trans hsv), fun he => hself ht (he.trans htv)⟩

variable {c : Canvas} {files : List SourceFile}

/-- When the ends of edges are declared. An export is written stroke by stroke, and behind the strokes stand
the edges, each on a line with the names of both ends. Each end is the position of a node, and the drawing of
the node introduces its name unless it is left nameless. So all ends are declared if and only if no drawn edge
ends at an open folder, in DOT, or at the open root, in a Mermaid chart. Only a dependency that itself names
such a folder does. -/
theorem edge_ends_declared_iff (hb : FolderTree.build files = .ok c.tree) (edges : List Dependency)
    (f : Folding) (format : DrawingFormat) :
    let p := c.project edges f
    let strokes := Figure.strokesOf 1 (p.drawing f).figures
    (∃ ending, (p.exportAs f format).content = format.heading ++ String.join (strokes.map format.stroke) ++
      String.join ((p.drawing f).edges.map format.edgeLine) ++ ending) ∧
    (∀ m ∈ (p.drawing f).edges, format.edgeLine m = (format.lineOf m).print) ∧
    (∀ m ∈ (p.drawing f).edges, ∀ k, k = m.source ∨ k = m.target →
      ∃ node, p.nodes[k]? = some node ∧ (format.Declared strokes k node ↔ ¬ format.Nameless f node)) ∧
    ((∀ m ∈ (p.drawing f).edges, ∀ k, k = m.source ∨ k = m.target →
        ∃ node, p.nodes[k]? = some node ∧ format.Declared strokes k node) ↔
      ∀ e ∈ p.activeEdges, ∀ node ∈ p.nodes, node.id = e.sourceVisible ∨ node.id = e.targetVisible →
        ¬ format.Nameless f node) ∧
    ∀ e ∈ p.edges, ∀ node ∈ p.nodes, format.Nameless f node →
      (node.id = e.sourceVisible → node.id = e.source) ∧
        (node.id = e.targetVisible → node.id = e.target) := by
  intro p strokes
  have h := (FolderTree.wellFormed_build hb).1
  have hsound : p.Sound := project_sound h edges f
  have hid : ∀ {k : Nat} {node : PositionedNode}, p.nodes[k]? = some node → p.ids[k]? = some node.id := by
    intro k node hn
    rw [Projection.ids, List.getElem?_map, hn, Option.map_some]
  have hnode : ∀ m ∈ (p.drawing f).edges, ∀ k, k = m.source ∨ k = m.target →
      ∃ node, p.nodes[k]? = some node ∧ (format.Declared strokes k node ↔ ¬ format.Nameless f node) := by
    intro m hm k hk
    obtain ⟨-, hsource, htarget⟩ := hsound.valid_of_mem_mergedEdges hm
    have hlt : k < p.nodes.length := by omega
    exact ⟨p.nodes[k], List.getElem?_eq_getElem hlt, c.declared_iff h format (List.getElem?_eq_getElem hlt)⟩
  refine ⟨⟨_, format.render_eq _⟩, ?_, hnode, ?_, fun e he node _ hn => id_eq_of_isCluster h he hn.1⟩
  · intro m hm
    have hdrawn : m ∈ c.tree.drawnEdges edges f := Canvas.mergedEdges_project h edges f ▸ hm
    obtain ⟨-, -, -, -, -, hpos, -⟩ := (Canvas.mem_drawnEdges edges f m).mp hdrawn
    exact format.edgeLine_eq hpos
  · constructor
    · intro hall e he node hn hends
      obtain ⟨k, hk⟩ := List.getElem?_of_mem hn
      have hat := hends.imp (fun hs => (hid hk).trans (congrArg some hs)) fun ht =>
        (hid hk).trans (congrArg some ht)
      obtain ⟨m, hm, hkm⟩ := hsound.end_iff.mpr ⟨e, he, hat⟩
      obtain ⟨node', hk', hdeclared⟩ := hall m hm k hkm
      obtain rfl := Option.some.inj (hk.symm.trans hk')
      exact (c.declared_iff h format hk).mp hdeclared
    · intro hall m hm k hk
      obtain ⟨node, hn, hiff⟩ := hnode m hm k hk
      obtain ⟨e, he, hends⟩ := hsound.end_iff.mp ⟨m, hm, hk⟩
      rw [hid hn] at hends
      exact ⟨node, hn, hiff.mpr (hall e he node (List.mem_of_getElem? hn)
        (hends.imp Option.some.inj Option.some.inj))⟩

theorem edge_ends_declared_iff_nested :
    let f := Folding.empty.set "a/b" false
    let p := ({ tree := FolderTree.nested } : Canvas).project [⟨"e", "a/b/c"⟩, ⟨"e", "a"⟩] f
    let strokes := Figure.strokesOf 1 (p.drawing f).figures
    FolderTree.build FolderTree.nestedFiles = .ok FolderTree.nested ∧
      (∀ m ∈ (p.drawing f).edges, ∀ k, k = m.source ∨ k = m.target →
        ∃ node, p.nodes[k]? = some node ∧ DrawingFormat.mermaid.Declared strokes k node) ∧
      ¬ ∀ m ∈ (p.drawing f).edges, ∀ k, k = m.source ∨ k = m.target →
        ∃ node, p.nodes[k]? = some node ∧ DrawingFormat.dot.Declared strokes k node := by
  intro f p strokes
  have h := edge_ends_declared_iff (c := { tree := FolderTree.nested }) FolderTree.build_nestedFiles
    [⟨"e", "a/b/c"⟩, ⟨"e", "a"⟩] f
  obtain ⟨-, -, -, hmermaid, -⟩ := h .mermaid
  obtain ⟨-, -, -, hdot, -⟩ := h .dot
  rw [hmermaid, hdot]
  refine ⟨FolderTree.build_nestedFiles, ?_⟩
  simp only [Canvas.project, FolderTree.visible, FolderTree.display_nested]
  decide +kernel

/-- Edges from a file to the open folder beside it and to the open root. -/
theorem edge_ends_undeclared :
    let p := ({ tree := FolderTree.nested } : Canvas).project [⟨"e", "a"⟩, ⟨"e", "root"⟩] Folding.empty
    let strokes := Figure.strokesOf 1 (p.drawing Folding.empty).figures
    FolderTree.build FolderTree.nestedFiles = .ok FolderTree.nested ∧
      (p.drawing Folding.empty).edges = [⟨5, 0, 1⟩, ⟨5, 1, 1⟩] ∧
      (p.drawing Folding.empty).edges.map Dot.edgeLine =
        ["    n5 -> n0 [color=\"#A9A9A9\" penwidth=2];\n", "    n5 -> n1 [color=\"#A9A9A9\" penwidth=2];\n"] ∧
      (p.drawing Folding.empty).edges.map Mermaid.edgeLine = ["    n5 --> n0\n", "    n5 --> n1\n"] ∧
      (∃ node, p.nodes[1]? = some node ∧ ¬ DrawingFormat.dot.Declared strokes 1 node) ∧
      ∀ format : DrawingFormat, ∃ node, p.nodes[0]? = some node ∧ ¬ format.Declared strokes 0 node := by
  intro p strokes
  have h := FolderTree.wellFormed_nested
  have hnodes := Canvas.nodes_project (c := { tree := FolderTree.nested }) h
    [⟨"e", "a"⟩, ⟨"e", "root"⟩] Folding.empty
  rw [FolderTree.display_nested] at hnodes
  have hnameless : ∀ {format : DrawingFormat} {k : Nat} {node : PositionedNode},
      p.nodes[k]? = some node → format.Nameless Folding.empty node →
      ∃ node, p.nodes[k]? = some node ∧ ¬ format.Declared strokes k node := by
    intro format k node hk hn
    exact ⟨node, hk, fun hd => (Canvas.declared_iff h format hk).mp hd hn⟩
  have hedges : (p.drawing Folding.empty).edges = [⟨5, 0, 1⟩, ⟨5, 1, 1⟩] := by
    change p.mergedEdges = _
    rw [Canvas.mergedEdges_project h, FolderTree.drawnEdges, FolderTree.numbering, FolderTree.strokes,
      FolderTree.display_nested]
    decide +kernel
  rw [hedges]
  refine ⟨FolderTree.build_nestedFiles, rfl, by decide +kernel, by decide +kernel, ?_, fun format => ?_⟩
  · exact hnameless (by rw [hnodes]; rfl) (by decide +kernel)
  · exact hnameless (by rw [hnodes]; rfl) ⟨by decide +kernel, Or.inr rfl⟩

end Foldergram
