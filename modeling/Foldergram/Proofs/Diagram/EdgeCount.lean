import Foldergram.Proofs.Diagram.Merging

/-! What a drawing counts: between two nodes on screen, the merged edge stands for every drawn edge. -/

namespace Foldergram

section Tally

variable {source target i j : Nat} {e : MergedEdge} {edges : List MergedEdge}

/-- The pair of positions comes before an edge. -/
def MergedEdge.Behind (e : MergedEdge) (source target : Nat) : Prop :=
  source < e.source ∨ source = e.source ∧ target < e.target

/-- Merged edges in the order of source and target, one for a pair. -/
def Ordered (edges : List MergedEdge) : Prop :=
  edges.Pairwise fun e e' => e'.Behind e.source e.target

/-- How many edges are merged from one position to another. -/
def countAt (edges : List MergedEdge) (source target : Nat) : Nat :=
  ((edges.find? fun e => e.source = source ∧ e.target = target).map (·.count)).getD 0

theorem countAt_cons (e : MergedEdge) (edges : List MergedEdge) (i j : Nat) : countAt (e :: edges) i j =
    if e.source = i ∧ e.target = j then e.count else countAt edges i j := by
  rw [countAt, List.find?_cons]
  by_cases h : e.source = i ∧ e.target = j <;> simp [h, countAt]

theorem countAt_eq_zero (h : ∀ e ∈ edges, ¬ (e.source = i ∧ e.target = j)) : countAt edges i j = 0 := by
  rw [countAt, List.find?_eq_none.mpr (fun e he => by simpa using h e he)]
  rfl

theorem tally_cases (source target : Nat) (e : MergedEdge) (edges : List MergedEdge) :
    (e.Behind source target ∧ tally source target (e :: edges) = ⟨source, target, 1⟩ :: e :: edges) ∨
    (source = e.source ∧ target = e.target ∧
      tally source target (e :: edges) = { e with count := e.count + 1 } :: edges) ∨
    ((e.source < source ∨ e.source = source ∧ e.target < target) ∧
      tally source target (e :: edges) = e :: tally source target edges) := by
  have hcases : e.Behind source target ∨ (source = e.source ∧ target = e.target) ∨
      (e.source < source ∨ e.source = source ∧ e.target < target) := by
    unfold MergedEdge.Behind
    omega
  rcases hcases with h | ⟨hs, ht⟩ | h
  · exact Or.inl ⟨h, tally_before h⟩
  · exact Or.inr (Or.inl ⟨hs, ht, tally_same hs ht⟩)
  · exact Or.inr (Or.inr ⟨h, tally_after h⟩)

/-- A count adds no pair but its own. -/
theorem mem_tally (h : e ∈ tally source target edges) :
    (e.source = source ∧ e.target = target) ∨
      ∃ e' ∈ edges, e'.source = e.source ∧ e'.target = e.target := by
  induction edges with
  | nil =>
    obtain rfl := List.mem_singleton.mp h
    exact Or.inl ⟨rfl, rfl⟩
  | cons first edges ih =>
    rcases tally_cases source target first edges with ⟨-, he⟩ | ⟨hs, ht, he⟩ | ⟨-, he⟩ <;>
      rw [he, List.mem_cons] at h
    · rcases h with rfl | h
      · exact Or.inl ⟨rfl, rfl⟩
      · exact Or.inr ⟨e, h, rfl, rfl⟩
    · rcases h with rfl | h
      · exact Or.inl ⟨hs.symm, ht.symm⟩
      · exact Or.inr ⟨e, List.mem_cons_of_mem _ h, rfl, rfl⟩
    · rcases h with rfl | h
      · exact Or.inr ⟨e, List.mem_cons_self .., rfl, rfl⟩
      · rcases ih h with hown | ⟨e', hm, hsame⟩
        · exact Or.inl hown
        · exact Or.inr ⟨e', List.mem_cons_of_mem _ hm, hsame⟩

theorem ordered_tally (h : Ordered edges) : Ordered (tally source target edges) := by
  induction edges with
  | nil => exact List.pairwise_singleton ..
  | cons first edges ih =>
    obtain ⟨hfirst, hrest⟩ := List.pairwise_cons.mp h
    rcases tally_cases source target first edges with ⟨hb, he⟩ | ⟨-, -, he⟩ | ⟨ha, he⟩ <;> rw [he]
    · refine List.pairwise_cons.mpr ⟨?_, h⟩
      intro e hm
      rcases List.mem_cons.mp hm with rfl | hm
      · exact hb
      · have hlater := hfirst e hm
        simp only [MergedEdge.Behind] at hb hlater ⊢
        omega
    · exact List.pairwise_cons.mpr ⟨hfirst, hrest⟩
    · refine List.pairwise_cons.mpr ⟨?_, ih hrest⟩
      intro e hm
      rcases mem_tally hm with ⟨hs, ht⟩ | ⟨e', hm', hs, ht⟩
      · simp only [MergedEdge.Behind]
        omega
      · have hlater := hfirst e' hm'
        simp only [MergedEdge.Behind] at hlater ⊢
        omega

theorem countAt_tally (h : Ordered edges) (i j : Nat) : countAt (tally source target edges) i j =
    countAt edges i j + if source = i ∧ target = j then 1 else 0 := by
  induction edges with
  | nil => rw [tally, countAt_cons, countAt, List.find?_nil, Option.map_none, Option.getD_none, Nat.zero_add]
  | cons first edges ih =>
    obtain ⟨hfirst, hrest⟩ := List.pairwise_cons.mp h
    rcases tally_cases source target first edges with ⟨hb, he⟩ | ⟨rfl, rfl, he⟩ | ⟨ha, he⟩ <;> rw [he]
    · by_cases hij : source = i ∧ target = j
      · have hnone : countAt (first :: edges) i j = 0 := by
          apply countAt_eq_zero
          intro e hm hsame
          simp only [MergedEdge.Behind] at hb hfirst
          rcases List.mem_cons.mp hm with rfl | hm
          · omega
          · have hlater := hfirst e hm
            omega
        rw [countAt_cons, if_pos hij, if_pos hij, hnone]
      · rw [countAt_cons _ (first :: edges), if_neg hij, if_neg hij, Nat.add_zero]
    · rw [countAt_cons, countAt_cons]
      split <;> rfl
    · rw [countAt_cons, countAt_cons, ih hrest]
      split
      · have hne : ¬ (source = i ∧ target = j) := by omega
        rw [if_neg hne, Nat.add_zero]
      · rfl

/-- After all pairs have been counted, each has its number of occurrences. -/
theorem countAt_foldl_tally (pairs : List (Nat × Nat)) (h : Ordered edges) (i j : Nat) :
    countAt (pairs.foldl (fun edges ends => tally ends.1 ends.2 edges) edges) i j =
      countAt edges i j + pairs.count (i, j) := by
  induction pairs generalizing edges with
  | nil => rfl
  | cons pair pairs ih =>
    rw [List.foldl_cons, ih (ordered_tally h), countAt_tally h, List.count_cons, Nat.add_assoc,
      Nat.add_comm (pairs.count (i, j))]
    simp only [beq_iff_eq, Prod.ext_iff]

end Tally

namespace Projection

variable {p : Projection} {a b u v : String} {i : Nat}

theorem getElem?_position? (h : p.position? u = some i) : (p.nodes.map (·.id))[i]? = some u := by
  obtain ⟨⟨node, k⟩, hf, rfl⟩ := Option.map_eq_some_iff.mp h
  have hm := List.mem_reverse.mp (List.mem_of_find?_eq_some hf)
  have hn : node.id = u := by simpa using List.find?_some hf
  rw [List.getElem?_map, List.mem_zipIdx_iff_getElem?.mp hm, Option.map_some, hn]

/-- A position belongs to one id. -/
theorem position?_inj (ha : p.position? a = some i) (hb : p.position? b = some i) : a = b :=
  Option.some.inj ((getElem?_position? ha).symm.trans (getElem?_position? hb))

theorem exists_position? (h : u ∈ p.nodes.map (·.id)) : ∃ i, p.position? u = some i := by
  obtain ⟨node, hn, rfl⟩ := List.mem_map.mp h
  cases hp : p.position? node.id with
  | none =>
    rw [position?, Option.map_eq_none_iff, List.find?_eq_none] at hp
    obtain ⟨k, hk⟩ := List.getElem?_of_mem hn
    have hm : (node, k) ∈ p.nodes.zipIdx.reverse :=
      List.mem_reverse.mpr (List.mem_zipIdx_iff_getElem?.mpr hk)
    exact absurd (by simp) (hp _ hm)
  | some i => exact ⟨i, rfl⟩

theorem positions?_eq_some {ends : String × String} {j : Nat} : p.positions? ends = some (i, j) ↔
    p.position? ends.1 = some i ∧ p.position? ends.2 = some j := by
  rw [positions?]
  cases p.position? ends.1 <;> cases p.position? ends.2 <;> simp

/-- Pairs of ids are counted by their positions. -/
theorem count_positions? {j : Nat} (hi : p.position? u = some i) (hj : p.position? v = some j)
    (pairs : List (String × String)) :
    (pairs.filterMap p.positions?).count (i, j) = pairs.count (u, v) := by
  rw [List.count_filterMap, List.count]
  apply List.countP_congr
  rintro ⟨a, b⟩ -
  simp only [beq_iff_eq, Prod.mk.injEq]
  constructor
  · intro h
    obtain ⟨ha, hb⟩ := positions?_eq_some.mp h
    exact ⟨position?_inj ha hi, position?_inj hb hj⟩
  · rintro ⟨rfl, rfl⟩
    exact positions?_eq_some.mpr ⟨hi, hj⟩

/-- How many edges a drawing merges from one node to another. -/
def countBetween (p : Projection) (u v : String) : Nat :=
  match p.position? u, p.position? v with
  | some i, some j => countAt p.mergedEdges i j
  | _, _ => 0

/-- The count between two nodes on screen is the number of edges drawn between them. -/
theorem countBetween_eq (hu : u ∈ p.nodes.map (·.id)) (hv : v ∈ p.nodes.map (·.id)) :
    p.countBetween u v = (p.activeEdges.map RoutedEdge.ends).count (u, v) := by
  obtain ⟨i, hi⟩ := exists_position? hu
  obtain ⟨j, hj⟩ := exists_position? hv
  rw [countBetween, hi, hj]
  simp only [p.mergedEdges_eq]
  rw [countAt_foldl_tally _ List.Pairwise.nil, countAt_eq_zero (by simp), Nat.zero_add,
    count_positions? hi hj]

end Projection

end Foldergram
