import Foldergram.Proofs.Layout.Range
import Foldergram.Proofs.Projection.Dependencies
import Foldergram.Proofs.Session.InputOrder
import Foldergram.Proofs.Tree.Paths

/-!
The figures of a session. They are gathered on walks through the tree and the projection, and come out as
the paths of the files and the ends of the dependencies say.
-/

namespace Foldergram

open Foldergram.Path

variable {g : SourceGraph} {c : Canvas} {f : Folding}

/-- The figures that the ids of a graph give. Only what is drawn and what is suppressed depends on the
folding, and these two make up the rest of the dependencies. -/
structure Stats.Tallies (st : Stats) (g : SourceGraph) : Prop where
  files : st.fileCount = g.files.length
  folders : ∃ paths : List String, paths.Nodup ∧ st.folderCount = paths.length ∧
    ∀ p, p ∈ paths ↔ ∃ file ∈ g.files, (p ++ "/").toList <+: file.id.toList
  depth : st.maxDepth = (g.files.map fun file => (segments file.id).length).max?.getD 0
  edges : st.edgeCount = g.dependencies.length
  dangling : st.danglingEdges = g.dependencies.countP fun d => ¬ (g.Knows d.source ∧ g.Knows d.target)
  accounted : st.activeEdges + st.suppressedEdges + st.danglingEdges = st.edgeCount
  visible : st.visibleNodes ≤ st.fileCount + st.folderCount + 1

namespace FolderTree.WellFormed

variable {t : FolderTree}

theorem maxDepth_eq (h : t.WellFormed) (hp : t.files.Perm g.files) :
    t.maxDepth = (g.files.map fun file => (segments file.id).length).max?.getD 0 := by
  apply eq_of_forall_ge_iff
  intro bound
  rw [h.maxDepth_le_iff, getD_max?_le_iff, List.forall_mem_map]
  simp only [hp.mem_iff]

end FolderTree.WellFormed

/-- What is routed is drawn or suppressed. -/
theorem Projection.length_activeEdges_add_suppressedCount (p : Projection) :
    p.activeEdges.length + p.suppressedCount = p.edges.length := by
  rw [activeEdges, ← List.countP_eq_length_filter, suppressedCount,
    List.length_eq_countP_add_countP RoutedEdge.suppressed, Nat.add_comm]
  simp only [Bool.not_eq_true, Bool.decide_eq_false]

namespace Canvas

/-- Every node on screen stands for an item of its own. -/
theorem length_nodes_le (c : Canvas) (edges : List Dependency) (f : Folding) :
    (c.project edges f).nodes.length ≤ c.tree.fileCount + c.tree.folderCount := by
  have hshown := (Item.visible_sublist f none c.tree.root.display).length_le
  rw [List.length_map, FolderTree.length_display, List.length_eq_countP_add_countP Item.isFolder,
    Nat.add_comm] at hshown
  simp only [Bool.not_eq_true, Bool.decide_eq_false] at hshown
  exact (List.length_map ..).trans_le hshown

theorem tallies_stats (h : c.tree.WellFormed) (hp : c.tree.files.Perm g.files) (f : Folding) :
    (c.stats g.dependencies.length (c.project g.dependencies f)).Tallies g where
  files := c.tree.fileCount_eq.trans hp.length_eq
  folders := by
    refine ⟨folderPaths c.tree.files, List.nodup_dedup _, ?_, fun p => ?_⟩
    · exact Nat.sub_eq_of_eq_add h.folderCount_eq
    · rw [mem_folderPaths]
      simp only [hp.mem_iff]
  depth := h.maxDepth_eq hp
  edges := rfl
  dangling := by
    simp only [h.knows_iff hp]
    exact length_skipped c g.dependencies f
  accounted := by
    have hrouted := (c.project g.dependencies f).length_activeEdges_add_suppressedCount
    have hall := length_edges_add_length_skipped c g.dependencies f
    simp only [stats]
    omega
  visible := by
    have hnodes := c.length_nodes_le g.dependencies f
    have hfolders := h.folderCount_eq
    simp only [stats]
    omega

end Canvas

namespace Session

variable {s : Session} {t : FolderTree}

theorem load_of_build (hb : FolderTree.build (g.exclude s.isExcluded).files = .ok t) :
    s.load g = ⟨{ s with loaded := some ⟨Canvas.paint { tree := t } s.palette,
        (g.exclude s.isExcluded).dependencies, Folding.openTo t s.openDepth⟩ },
      .ok (Folding.openTo t s.openDepth), exclusionNotices (g.excludedCount s.isExcluded) ++
        [.loaded t.fileCount t.folderCount (g.exclude s.isExcluded).dependencies.length]⟩ := by
  simp only [load, hb]

theorem exists_build_of_load {initial : Folding} (h : (s.load g).result = .ok initial) :
    ∃ t, FolderTree.build (g.exclude s.isExcluded).files = .ok t := by
  cases hb : FolderTree.build (g.exclude s.isExcluded).files with
  | error collision =>
    simp only [load, hb] at h
    cases h
  | ok t => exact ⟨t, rfl⟩

end Session

/-- The figures of a graph that has been loaded, under any folding, are those that the ids of its files and
dependencies give once the excluded files are left out. -/
theorem stats_tally_ids {s : Session} {initial : Folding} {r : Reply Projection}
    (hl : (s.load g).result = .ok initial) (hr : (s.load g).session.recompute f = .ok r) :
    ∃ st, r.session.stats? r.result = some st ∧ st.Tallies (g.exclude s.isExcluded) := by
  obtain ⟨t, hb⟩ := Session.exists_build_of_load hl
  rw [Session.load_of_build hb, Session.recompute_of_some rfl] at hr
  obtain ⟨c, hc, rfl⟩ := map_eq_ok.mp hr
  have htree : c.tree = t := Canvas.tree_layout hc
  obtain ⟨hwf, hp⟩ := FolderTree.wellFormed_build hb
  rw [← htree] at hwf hp
  exact ⟨_, rfl, Canvas.tallies_stats hwf hp f⟩

theorem stats_tally_ids_nested :
    let s : Session := { patterns := [⟨"x", [.char 'x']⟩] }
    let g : SourceGraph := ⟨⟨"x", "", 0⟩ :: FolderTree.nestedFiles,
      [⟨"e", "a/d"⟩, ⟨"x", "e"⟩, ⟨"e", "gone"⟩, ⟨"a/b/c", "a/b"⟩]⟩
    ∃ r st, (s.load g).session.recompute (Folding.empty.set "a/b" false) = .ok r ∧
      r.session.stats? r.result = some st ∧ st.Tallies (g.exclude s.isExcluded) ∧
      st.fileCount = 3 ∧ st.maxDepth = 3 ∧ st.edgeCount = 3 ∧ st.danglingEdges = 1 := by
  intro s g
  have hg : g.exclude s.isExcluded =
      ⟨FolderTree.nestedFiles, [⟨"e", "a/d"⟩, ⟨"e", "gone"⟩, ⟨"a/b/c", "a/b"⟩]⟩ := by
    decide +kernel
  have hload := Session.load_of_build (s := s) (g := g) (t := FolderTree.nested)
    (by rw [hg]; exact FolderTree.build_nestedFiles)
  have hlayout := Canvas.layout_of_ok (c := Canvas.paint { tree := FolderTree.nested } s.palette)
    FolderTree.wellFormed_nested FolderTree.layout_nested
  obtain ⟨r, hr⟩ : ∃ r, (s.load g).session.recompute (Folding.empty.set "a/b" false) = .ok r := by
    rw [hload, Session.recompute_of_some rfl]
    exact ⟨_, map_eq_ok.mpr ⟨_, hlayout, rfl⟩⟩
  obtain ⟨st, hst, h⟩ := stats_tally_ids (by rw [hload]) hr
  refine ⟨r, st, hr, hst, h, ?_, ?_, ?_, ?_⟩
  · rw [h.files, hg]
    rfl
  · rw [h.depth, hg]
    decide +kernel
  · rw [h.edges, hg]
    rfl
  · rw [h.dangling, hg]
    decide +kernel

end Foldergram
