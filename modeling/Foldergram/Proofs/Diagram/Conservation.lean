import Foldergram.Proofs.Diagram.EdgeTable
import Mathlib.Data.List.Dedup

/-!
Merging loses no edge. Both ends of a drawn edge are found among the nodes, so that the counts add up to the
drawn edges, and there are as many merged edges as there are pairs of connected nodes.
-/

namespace Foldergram

/-- There is one entry for each pair that has been counted. -/
theorem pairs_foldl_tally (pairs : List (Nat × Nat)) :
    ((pairs.foldl (fun edges ends => tally ends.1 ends.2 edges) []).map MergedEdge.pair).Perm
      pairs.dedup := by
  obtain ⟨hordered, hmem⟩ := foldl_tally pairs
  rw [List.perm_ext_iff_of_nodup hordered.nodup_pairs pairs.nodup_dedup]
  rintro ⟨i, j⟩
  rw [List.mem_dedup, List.mem_map]
  constructor
  · rintro ⟨e, he, hpair⟩
    obtain ⟨hpos, hcount⟩ := (hmem e).mp he
    rw [← hpair]
    exact List.count_pos_iff.mp (hcount ▸ hpos)
  · intro hm
    exact ⟨⟨i, j, pairs.count (i, j)⟩, (hmem _).mpr ⟨List.count_pos_iff.mpr hm, rfl⟩, rfl⟩

theorem sum_counts_foldl_tally (pairs : List (Nat × Nat)) :
    ((pairs.foldl (fun edges ends => tally ends.1 ends.2 edges) []).map (·.count)).sum = pairs.length := by
  obtain ⟨hordered, hmem⟩ := foldl_tally pairs
  have hperm := pairs_foldl_tally pairs
  generalize pairs.foldl (fun edges ends => tally ends.1 ends.2 edges) [] = merged at hordered hmem hperm ⊢
  have hcounts : merged.map (·.count) = (merged.map MergedEdge.pair).map (pairs.count ·) := by
    rw [List.map_map]
    exact List.map_congr_left fun e he => ((hmem e).mp he).2
  rw [hcounts, sum_map_count hordered.nodup_pairs, List.countP_eq_length]
  intro pair hm
  rw [decide_eq_true_iff, hperm.mem_iff, List.mem_dedup]
  exact hm

namespace Projection

variable {p : Projection} {u v : String} {i j : Nat}

theorem ordered_mergedEdges (p : Projection) : Ordered p.mergedEdges := by
  rw [p.mergedEdges_eq]
  exact (foldl_tally _).1

namespace Sound

theorem exists_positions? (h : p.Sound) {ends : String × String}
    (he : ends ∈ p.activeEdges.map RoutedEdge.ends) : ∃ pair, p.positions? ends = some pair := by
  obtain ⟨hs, ht⟩ := h.onScreen ends he
  obtain ⟨i, hi⟩ := exists_position? hs
  obtain ⟨j, hj⟩ := exists_position? ht
  exact ⟨(i, j), positions?_eq_some.mpr ⟨hi, hj⟩⟩

theorem sum_counts (h : p.Sound) : (p.mergedEdges.map (·.count)).sum = p.activeEdges.length := by
  rw [mergedEdges_eq, sum_counts_foldl_tally,
    List.filterMap_length_eq_length.mpr (fun ends he => Option.isSome_iff_exists.mpr (h.exists_positions? he)),
    List.length_map]

/-- Ends that differ have different positions, so that each pair of connected nodes has an entry of its own. -/
theorem length_mergedEdges (h : p.Sound) :
    p.mergedEdges.length = (p.activeEdges.map RoutedEdge.ends).dedup.length := by
  have hinj : ∀ a b, ∀ pair ∈ p.positions? a, pair ∈ p.positions? b → a = b := by
    rintro a b ⟨i, j⟩ ha hb
    obtain ⟨ha₁, ha₂⟩ := positions?_eq_some.mp ha
    obtain ⟨hb₁, hb₂⟩ := positions?_eq_some.mp hb
    exact Prod.ext (position?_inj ha₁ hb₁) (position?_inj ha₂ hb₂)
  have hperm : ((p.activeEdges.map RoutedEdge.ends).filterMap p.positions?).dedup.Perm
      ((p.activeEdges.map RoutedEdge.ends).dedup.filterMap p.positions?) := by
    rw [List.perm_ext_iff_of_nodup (List.nodup_dedup _) ((List.nodup_dedup _).filterMap hinj)]
    simp
  have hlength := (pairs_foldl_tally ((p.activeEdges.map RoutedEdge.ends).filterMap p.positions?)).length_eq
  rw [List.length_map, ← mergedEdges_eq, hperm.length_eq] at hlength
  rw [hlength, List.filterMap_length_eq_length]
  exact fun ends he => Option.isSome_iff_exists.mpr (h.exists_positions? (List.mem_dedup.mp he))

/-- Between two nodes there is the entry that counts the edges drawn from one to the other, and no entry if
there are none. -/
theorem mem_mergedEdges (h : p.Sound) (hu : p.ids[i]? = some u) (hv : p.ids[j]? = some v) (count : Nat) :
    ⟨i, j, count⟩ ∈ p.mergedEdges ↔ 0 < count ∧
      count = p.activeEdges.countP (fun e => e.sourceVisible = u ∧ e.targetVisible = v) := by
  have hcount : (p.activeEdges.map RoutedEdge.ends).count (u, v) =
      p.activeEdges.countP (fun e => e.sourceVisible = u ∧ e.targetVisible = v) := by
    rw [List.count, List.countP_map]
    exact List.countP_congr (by simp [RoutedEdge.ends])
  rw [← hcount, h.mergedEdges_eq_edgeTable, mem_edgeTable]
  simp only [List.mem_zipIdx_iff_getElem?, hu, hv, Option.some.injEq]
  constructor
  · rintro ⟨_, _, rfl, rfl, -, hpos, hc⟩
    exact ⟨hpos, hc⟩
  · rintro ⟨hpos, hc⟩
    exact ⟨u, v, rfl, rfl, h.apart (u, v) (List.count_pos_iff.mp (hc ▸ hpos)), hpos, hc⟩

theorem valid_of_mem_mergedEdges (h : p.Sound) {e : MergedEdge} (he : e ∈ p.mergedEdges) :
    e.source ≠ e.target ∧ e.source < p.nodes.length ∧ e.target < p.nodes.length := by
  rw [h.mergedEdges_eq_edgeTable, mem_edgeTable] at he
  obtain ⟨u, v, hu, hv, hne, -⟩ := he
  rw [List.mem_zipIdx_iff_getElem?] at hu hv
  obtain ⟨hi, -⟩ := List.getElem?_eq_some_iff.mp hu
  obtain ⟨hj, -⟩ := List.getElem?_eq_some_iff.mp hv
  rw [ids, List.length_map] at hi hj
  refine ⟨?_, hi, hj⟩
  intro hij
  rw [hij, hv] at hu
  exact hne (Option.some.inj hu).symm

end Sound

end Projection

variable {c : Canvas} {files : List SourceFile}

/-- A drawing merges the drawn edges without loss. No pair of positions is repeated, and between two nodes
stands the number of edges drawn from one to the other; the positions of an entry are those of two different
nodes, every end is found, and the counts add up to the edges drawn. An export reports as many edges as there
are pairs of connected nodes. -/
theorem drawing_conserves_edges (hb : FolderTree.build files = .ok c.tree) (edges : List Dependency)
    (f : Folding) :
    let p := c.project edges f
    ((p.drawing f).edges.map fun e => (e.source, e.target)).Nodup ∧
    (∀ i j u v, p.ids[i]? = some u → p.ids[j]? = some v → ∀ count,
      ⟨i, j, count⟩ ∈ (p.drawing f).edges ↔ 0 < count ∧
        count = p.activeEdges.countP (fun e => e.sourceVisible = u ∧ e.targetVisible = v)) ∧
    (∀ e ∈ (p.drawing f).edges,
      e.source ≠ e.target ∧ e.source < p.nodes.length ∧ e.target < p.nodes.length) ∧
    ((p.drawing f).edges.map (·.count)).sum = p.activeEdges.length ∧
    (∀ e ∈ p.activeEdges, ∃ i j, p.position? e.sourceVisible = some i ∧
      p.position? e.targetVisible = some j) ∧
    ∀ format, (p.exportAs f format).edgeCount = (p.activeEdges.map RoutedEdge.ends).dedup.length := by
  intro p
  have h : p.Sound := project_sound (FolderTree.wellFormed_build hb).1 edges f
  refine ⟨p.ordered_mergedEdges.nodup_pairs, fun i j u v hu hv count => h.mem_mergedEdges hu hv count,
    fun e he => h.valid_of_mem_mergedEdges he, h.sum_counts, ?_, fun format => h.length_mergedEdges⟩
  intro e he
  obtain ⟨⟨i, j⟩, hat⟩ := h.exists_positions? (List.mem_map_of_mem he)
  exact ⟨i, j, Projection.positions?_eq_some.mp hat⟩

theorem drawing_conserves_edges_nested :
    let f := Folding.empty.set "a" false
    let edges : List Dependency := [⟨"e", "a/b/c"⟩, ⟨"a/d", "a/b/c"⟩, ⟨"a", "e"⟩, ⟨"e", "a/d"⟩, ⟨"e", "x"⟩]
    let p := ({ tree := FolderTree.nested } : Canvas).project edges f
    FolderTree.build FolderTree.nestedFiles = .ok FolderTree.nested ∧
      p.ids = ["root", "a", "e"] ∧ ⟨2, 1, 2⟩ ∈ (p.drawing f).edges ∧
      ((p.drawing f).edges.map (·.count)).sum = 3 ∧ (p.exportAs f .dot).edgeCount = 2 := by
  intro f edges p
  obtain ⟨-, hentry, -, hsum, -, hcount⟩ := drawing_conserves_edges (c := { tree := FolderTree.nested })
    FolderTree.build_nestedFiles edges f
  have hids : p.ids = ["root", "a", "e"] := by
    rw [project_ids, FolderTree.visibleIds, FolderTree.visible, FolderTree.display_nested]
    decide +kernel
  refine ⟨FolderTree.build_nestedFiles, hids, ?_, ?_, ?_⟩
  · exact (hentry 2 1 "e" "a" (by rw [hids]; rfl) (by rw [hids]; rfl) 2).mpr (by decide +kernel)
  · rw [hsum]
    decide +kernel
  · rw [hcount]
    decide +kernel

end Foldergram
