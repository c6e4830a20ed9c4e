import Foldergram.Proofs.Diagram.Coarsening

/-!
The edges of a drawing as a table: for each ordered pair of nodes on screen, how many edges are drawn from
one to the other.
-/

namespace Foldergram

/-- Goes through all ordered pairs of numbered ids, and has an edge for each pair that is connected. -/
def edgeTable (numbered : List (String × Nat)) (count : String → String → Nat) : List MergedEdge :=
  numbered.flatMap fun u => numbered.filterMap fun v =>
    if u.1 ≠ v.1 ∧ 0 < count u.1 v.1 then some ⟨u.2, v.2, count u.1 v.1⟩ else none

section Table

variable {edges edges' : List MergedEdge} {e : MergedEdge} {numbered : List (String × Nat)}
  {count : String → String → Nat} {source target : Nat}

theorem mem_edgeTable : e ∈ edgeTable numbered count ↔ ∃ u v,
    (u, e.source) ∈ numbered ∧ (v, e.target) ∈ numbered ∧ u ≠ v ∧ 0 < e.count ∧ e.count = count u v := by
  simp only [edgeTable, List.mem_flatMap, List.mem_filterMap, Option.ite_none_right_eq_some,
    Option.some.injEq]
  constructor
  · rintro ⟨⟨u, i⟩, hu, ⟨v, j⟩, hv, ⟨hne, hpos⟩, rfl⟩
    exact ⟨u, v, hu, hv, hne, hpos, rfl⟩
  · rintro ⟨u, v, hu, hv, hne, hpos, he⟩
    exact ⟨_, hu, _, hv, ⟨hne, he ▸ hpos⟩, by rw [← he]⟩

/-- What is counted from an id to itself does not enter the table. -/
theorem edgeTable_congr {count' : String → String → Nat} (h : ∀ u v, u ≠ v → count u v = count' u v) :
    edgeTable numbered count = edgeTable numbered count' := by
  unfold edgeTable
  refine List.flatMap_congr fun u _ => List.filterMap_congr fun v _ => ?_
  by_cases hne : u.1 = v.1
  · simp [hne]
  · rw [h u.1 v.1 hne]

/-- The table goes by the numbers of the sources, and at one source by those of the targets. -/
theorem ordered_edgeTable (h : numbered.Pairwise fun u v => u.2 < v.2) :
    Ordered (edgeTable numbered count) := by
  refine List.pairwise_flatMap.mpr ⟨?_, ?_⟩
  · intro u _
    refine List.pairwise_filterMap.mpr (h.imp ?_)
    intro v w hlt e he e' he'
    obtain ⟨-, ⟨⟩⟩ := Option.ite_none_right_eq_some.mp he
    obtain ⟨-, ⟨⟩⟩ := Option.ite_none_right_eq_some.mp he'
    exact Or.inr ⟨rfl, hlt⟩
  · refine h.imp ?_
    intro u v hlt e he e' he'
    obtain ⟨_, -, he⟩ := List.mem_filterMap.mp he
    obtain ⟨_, -, he'⟩ := List.mem_filterMap.mp he'
    obtain ⟨-, ⟨⟩⟩ := Option.ite_none_right_eq_some.mp he
    obtain ⟨-, ⟨⟩⟩ := Option.ite_none_right_eq_some.mp he'
    exact Or.inl hlt

/-- The positions that an edge connects. -/
def MergedEdge.pair (e : MergedEdge) : Nat × Nat :=
  (e.source, e.target)

theorem Ordered.nodup_pairs (h : Ordered edges) : (edges.map MergedEdge.pair).Nodup := by
  rw [List.Nodup, List.pairwise_map]
  refine List.Pairwise.imp ?_ h
  intro e e' hb he
  obtain ⟨hs, ht⟩ := Prod.mk.inj he
  simp only [MergedEdge.Behind] at hb
  omega

/-- Edges in order are determined by what is among them. -/
theorem Ordered.eq_of_mem_iff (h : Ordered edges) (h' : Ordered edges')
    (hm : ∀ e, e ∈ edges ↔ e ∈ edges') : edges = edges' := by
  have hperm := (List.perm_ext_iff_of_nodup h.nodup_pairs.of_map h'.nodup_pairs.of_map).mpr hm
  refine List.Perm.eq_of_pairwise ?_ h h' hperm
  intro e e' _ _ hb hb'
  simp only [MergedEdge.Behind] at hb hb'
  omega

theorem count_pos_tally (h : ∀ e ∈ edges, 0 < e.count) : ∀ e ∈ tally source target edges, 0 < e.count := by
  induction edges with
  | nil => simp [tally]
  | cons first edges ih =>
    obtain ⟨hfirst, hrest⟩ := List.forall_mem_cons.mp h
    rcases tally_cases source target first edges with ⟨-, he⟩ | ⟨-, -, he⟩ | ⟨-, he⟩ <;> rw [he]
    · exact List.forall_mem_cons.mpr ⟨Nat.one_pos, h⟩
    · exact List.forall_mem_cons.mpr ⟨Nat.succ_pos _, hrest⟩
    · exact List.forall_mem_cons.mpr ⟨hfirst, ih hrest⟩

theorem Ordered.countAt_eq (h : Ordered edges) (he : e ∈ edges) :
    countAt edges e.source e.target = e.count := by
  induction edges with
  | nil => cases he
  | cons first edges ih =>
    obtain ⟨hfirst, hrest⟩ := List.pairwise_cons.mp h
    rw [countAt_cons]
    rcases List.mem_cons.mp he with rfl | he
    · rw [if_pos ⟨rfl, rfl⟩]
    · have hb := hfirst e he
      simp only [MergedEdge.Behind] at hb
      rw [if_neg (by omega), ih hrest he]

theorem mem_of_countAt_pos (h : 0 < countAt edges source target) :
    ⟨source, target, countAt edges source target⟩ ∈ edges := by
  induction edges with
  | nil => simp [countAt] at h
  | cons first edges ih =>
    rw [countAt_cons] at h ⊢
    split at h
    · rename_i hs
      obtain ⟨rfl, rfl⟩ := hs
      rw [if_pos ⟨rfl, rfl⟩]
      exact List.mem_cons_self ..
    · rename_i hs
      rw [if_neg hs]
      exact List.mem_cons_of_mem _ (ih h)

/-- When pairs have been counted one after another, the entries are those that occur, with their number. -/
theorem foldl_tally (pairs : List (Nat × Nat)) :
    let merged := pairs.foldl (fun edges ends => tally ends.1 ends.2 edges) []
    Ordered merged ∧ ∀ e, e ∈ merged ↔ 0 < e.count ∧ e.count = pairs.count (e.source, e.target) := by
  have hall : ∀ edges, Ordered edges → (∀ e ∈ edges, 0 < e.count) →
      let merged := pairs.foldl (fun edges ends => tally ends.1 ends.2 edges) edges
      Ordered merged ∧ ∀ e ∈ merged, 0 < e.count := by
    induction pairs with
    | nil => exact fun edges ho hp => ⟨ho, hp⟩
    | cons pair pairs ih => exact fun edges ho hp => ih _ (ordered_tally ho) (count_pos_tally hp)
  intro merged
  obtain ⟨hordered, hpos⟩ : Ordered merged ∧ ∀ e ∈ merged, 0 < e.count :=
    hall [] List.Pairwise.nil (by simp)
  have hcount : ∀ i j, countAt merged i j = pairs.count (i, j) := by
    intro i j
    rw [countAt_foldl_tally _ List.Pairwise.nil, countAt_eq_zero (by simp), Nat.zero_add]
  refine ⟨hordered, fun e => ⟨fun he => ⟨hpos e he, ?_⟩, fun ⟨hp, he⟩ => ?_⟩⟩
  · rw [← hcount, hordered.countAt_eq he]
  · rw [← hcount] at he
    have hm := mem_of_countAt_pos (he ▸ hp)
    rw [← he] at hm
    exact hm

end Table

variable {c : Canvas} {p : Projection} {u : String} {i : Nat}

theorem pairwise_zipIdx (ids : List String) : ids.zipIdx.Pairwise fun u v => u.2 < v.2 := by
  rw [← List.pairwise_map, List.zipIdx_map_snd]
  exact List.pairwise_lt_range'

/-- Where ids do not repeat, the position of an id is where it stands. -/
theorem Projection.position?_eq_some_iff (hd : p.ids.Nodup) :
    p.position? u = some i ↔ (u, i) ∈ p.ids.zipIdx := by
  rw [List.mem_zipIdx_iff_getElem?]
  constructor
  · exact getElem?_position?
  · intro hi
    obtain ⟨k, hk⟩ := exists_position? (List.mem_of_getElem? hi)
    have hat : p.ids[k]? = some u := getElem?_position? hk
    obtain ⟨hlt, -⟩ := List.getElem?_eq_some_iff.mp hi
    obtain rfl : i = k := (List.getElem?_inj hlt hd).mp (hi.trans hat.symm)
    exact hk

/-- No id is repeated, and each drawn edge leads from a node to another one. -/
structure Projection.Sound (p : Projection) : Prop where
  distinct : p.ids.Nodup
  onScreen : ∀ ends ∈ p.activeEdges.map RoutedEdge.ends, ends.1 ∈ p.ids ∧ ends.2 ∈ p.ids
  apart : ∀ ends ∈ p.activeEdges.map RoutedEdge.ends, ends.1 ≠ ends.2

theorem project_sound (h : c.tree.WellFormed) (edges : List Dependency) (f : Folding) :
    (c.project edges f).Sound := by
  refine ⟨nodup_ids h edges f, ?_, ?_⟩
  · intro ends hm
    rw [ends_activeEdges_project, List.mem_filter] at hm
    exact mem_ids_of_drawnEnds h hm.1
  · intro ends hm
    rw [ends_activeEdges_project, List.mem_filter] at hm
    simpa using hm.2

/-- The merged edges are the table of the drawn edges. -/
theorem Projection.Sound.mergedEdges_eq_edgeTable (h : p.Sound) :
    p.mergedEdges = edgeTable p.ids.zipIdx fun u v => (p.activeEdges.map RoutedEdge.ends).count (u, v) := by
  rw [p.mergedEdges_eq]
  obtain ⟨hordered, hmem⟩ := foldl_tally ((p.activeEdges.map RoutedEdge.ends).filterMap p.positions?)
  apply hordered.eq_of_mem_iff (ordered_edgeTable (pairwise_zipIdx _))
  intro e
  rw [hmem, mem_edgeTable]
  constructor
  · rintro ⟨hpos, he⟩
    obtain ⟨⟨u, v⟩, hends, hat⟩ := List.mem_filterMap.mp (List.count_pos_iff.mp (he ▸ hpos))
    obtain ⟨hu, hv⟩ := positions?_eq_some.mp hat
    exact ⟨u, v, (position?_eq_some_iff h.distinct).mp hu, (position?_eq_some_iff h.distinct).mp hv,
      h.apart _ hends, hpos, he.trans (count_positions? hu hv _)⟩
  · rintro ⟨u, v, hu, hv, -, hpos, he⟩
    rw [← position?_eq_some_iff h.distinct] at hu hv
    exact ⟨hpos, he.trans (count_positions? hu hv _).symm⟩

/-- In a projection the table counts the dependencies that are drawn from one item to the other. -/
theorem FolderTree.WellFormed.mergedEdges_eq (h : c.tree.WellFormed) (edges : List Dependency)
    (f : Folding) : (c.project edges f).mergedEdges =
      edgeTable (c.tree.visibleIds f).zipIdx fun u v =>
        edges.countP (drawnEnds c.tree f · = some (u, v)) := by
  rw [(project_sound h edges f).mergedEdges_eq_edgeTable, project_ids]
  apply edgeTable_congr
  intro u v huv
  rw [ends_activeEdges_project, List.count_filter (by simpa using huv), List.count_filterMap]
  apply List.countP_congr
  simp

end Foldergram
