import Foldergram.Proofs.Canvas
import Foldergram.Proofs.Diagram.Merging
import Foldergram.Session

/-!
The order of the input. Files and dependencies may be delivered in any order: what a session shows,
counts and exports stays the same.
-/

namespace Foldergram

/-- The same files and dependencies in another order. -/
structure SourceGraph.Reorders (g g' : SourceGraph) : Prop where
  files : g.files.Perm g'.files
  dependencies : g.dependencies.Perm g'.dependencies

theorem SourceGraph.Reorders.exclude {g g' : SourceGraph} (h : g.Reorders g') (excluded : String → Bool) :
    (g.exclude excluded).Reorders (g'.exclude excluded) := by
  have hgone : (g.excludedIds excluded).Perm (g'.excludedIds excluded) :=
    (h.files.filter _).map _
  have hcontains : ∀ id, (g.excludedIds excluded).contains id =
      (g'.excludedIds excluded).contains id := by
    intro id
    rw [List.contains_eq_mem, List.contains_eq_mem, decide_eq_decide]
    exact hgone.mem_iff
  simp only [SourceGraph.exclude, hcontains]
  exact ⟨h.files.filter _, h.dependencies.filter _⟩

/-- Files in another order make a tree that is displayed alike, or none. -/
theorem FolderTree.build_of_perm {files files' : List SourceFile} (h : files.Perm files') :
    (∃ t t', build files = .ok t ∧ build files' = .ok t' ∧ t.Alike t') ∨
      ∃ e e', build files = .error e ∧ build files' = .error e' := by
  have hok : (∃ t, build files = .ok t) ↔ ∃ t, build files' = .ok t := by
    rw [build_isOk_iff, build_isOk_iff, h.pairwise_iff fun hab => hab.symm]
    simp only [h.mem_iff]
  cases hb : build files with
  | ok t =>
    obtain ⟨t', hb'⟩ := hok.mp ⟨t, hb⟩
    obtain ⟨hwf, hp⟩ := wellFormed_build hb
    obtain ⟨hwf', hp'⟩ := wellFormed_build hb'
    have hfiles : t.files.Perm t'.files := hp.trans (h.trans hp'.symm)
    exact Or.inl ⟨t, t', rfl, hb', hwf.alike hwf' (fun _ => hfiles.mem_iff)⟩
  | error e =>
    cases hb' : build files' with
    | ok t' =>
      obtain ⟨t, ht⟩ := hok.mpr ⟨t', hb'⟩
      rw [hb] at ht
      cases ht
    | error e' => exact Or.inr ⟨e, e', rfl, rfl⟩

theorem FolderTree.Alike.color_paint {t t' : FolderTree} (h : t.Alike t') (p : Palette) {id : String}
    (hid : id ∈ t.items.map Item.id) :
    (Canvas.paint { tree := t } p).color id = (Canvas.paint { tree := t' } p).color id := by
  have hc : id ∈ t.created := h.left.created.mem_iff.mpr hid
  have hc' : id ∈ t'.created := h.right.created.mem_iff.mpr (h.mem_items.mp hid)
  simp [Canvas.color_paint, hc, hc']

theorem stats_congr {c c' : Canvas} {p q : Projection} (h : c.tree.Alike c'.tree)
    (hbox : c.box rootId = c'.box rootId) (hp : p.Alike q) (edgeCount : Nat) :
    c.stats edgeCount p = c'.stats edgeCount q := by
  have hfiles : c.tree.fileCount = c'.tree.fileCount := h.countP_items (by simp)
  have hfolders : c.tree.folderCount = c'.tree.folderCount := h.countP_items (by simp)
  have hactive : p.activeEdges.length = q.activeEdges.length := by
    simpa using hp.drawn.length_eq
  simp only [Canvas.stats, hfiles, hfolders, h.maxDepth_eq, hp.nodes, hactive, hp.suppressed, hp.skipped,
    hbox]

/-- Loaded graphs that differ in the order of their items and edges, and in boxes yet to be laid out. -/
structure LoadedGraph.Alike (l l' : LoadedGraph) : Prop where
  tree : l.canvas.tree.Alike l'.canvas.tree
  color : ∀ id ∈ l.canvas.tree.items.map Item.id, l.canvas.color id = l'.canvas.color id
  edges : l.edges.Perm l'.edges
  initial : l.initial = l'.initial

/-- A layout after the load shows the same, up to the order of edges. -/
theorem LoadedGraph.Alike.project {l l' : LoadedGraph} {f : Folding} {c c' : Canvas} (h : l.Alike l')
    (hc : l.canvas.layout f = .ok c) (hc' : l'.canvas.layout f = .ok c') :
    (c.project l.edges f).Alike (c'.project l'.edges f) ∧
      c.stats l.edges.length (c.project l.edges f) =
        c'.stats l'.edges.length (c'.project l'.edges f) := by
  have ht : c.tree.Alike c'.tree := by
    rw [Canvas.tree_layout hc, Canvas.tree_layout hc']
    exact h.tree
  have hbox := Canvas.box_layout_congr h.tree.left h.tree.right h.tree.display hc hc'
  have hcolor : ∀ id ∈ c.tree.visibleIds f, c.color id = c'.color id := by
    rw [Canvas.tree_layout hc]
    intro id hid
    rw [Canvas.color, Canvas.color, Canvas.colors_layout hc, Canvas.colors_layout hc']
    exact h.color id (h.tree.left.mem_visibleIds.mp hid).1
  have hp := project_alike ht h.edges hbox hcolor
  have hroot := hbox rootId (ht.left.mem_visibleIds.mpr ht.left.shows_rootId)
  rw [h.edges.length_eq]
  exact ⟨hp, stats_congr ht hroot hp _⟩

/-- What a caller can make of a recomputation: the nodes, the figures about them and every export. -/
def Reply.sights (r : Reply Projection) :
    List PositionedNode × Option Stats × (Folding → DrawingFormat → Export) :=
  (r.result.nodes, r.session.stats? r.result, r.result.exportAs)

namespace Session

variable {s s' : Session} {l l' : LoadedGraph} {g g' : SourceGraph} {f : Folding}

theorem recompute_of_none (h : s.loaded = none) :
    s.recompute f = .ok ⟨s, {}, [.nothingLoaded]⟩ := by
  simp only [recompute, recompute?, h]
  rfl

theorem recompute_of_some (h : s.loaded = some l) :
    s.recompute f = (l.canvas.layout f).map fun canvas =>
      ⟨{ s with loaded := some { l with canvas := canvas } }, canvas.project l.edges f,
        recomputeNotices (canvas.project l.edges f)⟩ := by
  simp only [recompute, recompute?, h]
  cases l.canvas.layout f <;> rfl

theorem load_alike (s : Session) (h : g.Reorders g') :
    (∃ l l', (s.load g).session.loaded = some l ∧ (s.load g').session.loaded = some l' ∧ l.Alike l' ∧
      (s.load g).result = .ok l.initial ∧ (s.load g').result = .ok l'.initial) ∨
    ∃ e e', (s.load g).session.loaded = none ∧ (s.load g').session.loaded = none ∧
      (s.load g).result = .error e ∧ (s.load g').result = .error e' := by
  have hr := h.exclude s.isExcluded
  unfold load
  rcases FolderTree.build_of_perm hr.files with ⟨t, t', hb, hb', ht⟩ | ⟨e, e', hb, hb'⟩
  · simp only [hb, hb']
    exact Or.inl ⟨_, _, rfl, rfl, ⟨ht, fun id hid => ht.color_paint s.palette hid, hr.dependencies,
      ht.openTo_eq _⟩, rfl, rfl⟩
  · simp only [hb, hb']
    exact Or.inr ⟨_, _, rfl, rfl, rfl, rfl⟩

theorem sights_recompute (hs : s.loaded = some l) (hs' : s'.loaded = some l') (h : l.Alike l')
    (f : Folding) : (s.recompute f).map Reply.sights = (s'.recompute f).map Reply.sights := by
  rw [recompute_of_some hs, recompute_of_some hs']
  rcases Canvas.layout_both h.tree.left h.tree.right h.tree.display f with ⟨c, c', hc, hc'⟩ | ⟨e, hc, hc'⟩
  · obtain ⟨hp, hstats⟩ := h.project hc hc'
    rw [hc, hc']
    refine congrArg Except.ok (Prod.ext hp.nodes (Prod.ext ?_ hp.exportAs_eq))
    exact congrArg some hstats
  · rw [hc, hc']
    rfl

end Session

/-- The order of the input does not matter: a load succeeds with the same folders open or fails, and
every recomputation shows the same nodes, figures and exports. -/
theorem load_order_irrelevant (s : Session) (g g' : SourceGraph) (hf : g.files.Perm g'.files)
    (hd : g.dependencies.Perm g'.dependencies) :
    (∀ initial, (s.load g).result = .ok initial ↔ (s.load g').result = .ok initial) ∧
    (s.load g).session.initial? = (s.load g').session.initial? ∧
    ∀ f, ((s.load g).session.recompute f).map Reply.sights =
      ((s.load g').session.recompute f).map Reply.sights := by
  rcases s.load_alike ⟨hf, hd⟩ with ⟨l, l', hl, hl', h, hr, hr'⟩ | ⟨e, e', hl, hl', hr, hr'⟩
  · refine ⟨?_, ?_, Session.sights_recompute hl hl' h⟩
    · rw [hr, hr', h.initial]
      exact fun _ => Iff.rfl
    · rw [Session.initial?, Session.initial?, hl, hl', Option.map_some, Option.map_some, h.initial]
  · refine ⟨?_, ?_, ?_⟩
    · rw [hr, hr']
      simp
    · rw [Session.initial?, Session.initial?, hl, hl']
    · intro f
      rw [Session.recompute_of_none hl, Session.recompute_of_none hl']
      simp [Except.map, Reply.sights, Session.stats?, hl, hl']

theorem load_order_irrelevant_nested :
    FolderTree.nestedFiles.Perm FolderTree.nestedFiles.reverse ∧
    ((Session.ofConfig {}).load ⟨FolderTree.nestedFiles, [⟨"e", "a/d"⟩, ⟨"a/d", "e"⟩]⟩).result =
      .ok (Folding.openTo FolderTree.nested 1) ∧
    ((Session.ofConfig {}).load
      ⟨FolderTree.nestedFiles.reverse, [⟨"a/d", "e"⟩, ⟨"e", "a/d"⟩]⟩).result =
      .ok (Folding.openTo FolderTree.nested 1) := by
  have hf : FolderTree.nestedFiles.Perm FolderTree.nestedFiles.reverse :=
    (List.reverse_perm _).symm
  have hr : ((Session.ofConfig {}).load
      ⟨FolderTree.nestedFiles, [⟨"e", "a/d"⟩, ⟨"a/d", "e"⟩]⟩).result =
      .ok (Folding.openTo FolderTree.nested 1) := rfl
  have h := load_order_irrelevant (Session.ofConfig {})
    ⟨FolderTree.nestedFiles, [⟨"e", "a/d"⟩, ⟨"a/d", "e"⟩]⟩
    ⟨FolderTree.nestedFiles.reverse, [⟨"a/d", "e"⟩, ⟨"e", "a/d"⟩]⟩ hf (.swap ..)
  exact ⟨hf, hr, (h.1 _).mp hr⟩

end Foldergram
