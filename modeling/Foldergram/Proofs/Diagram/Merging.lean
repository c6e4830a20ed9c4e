import Foldergram.Diagram.Export
import Foldergram.Proofs.Projection.EdgeOrder

/-! Merging edges in any order, and what a drawing depends on. -/

namespace Foldergram

section Tally

variable {source target source' target' : Nat} {e : MergedEdge} {edges : List MergedEdge}

theorem tally_before (h : source < e.source ∨ source = e.source ∧ target < e.target) :
    tally source target (e :: edges) = ⟨source, target, 1⟩ :: e :: edges := by
  rw [tally, if_pos h]

theorem tally_same (hs : source = e.source) (ht : target = e.target) :
    tally source target (e :: edges) = { e with count := e.count + 1 } :: edges := by
  have hb : ¬ (source < e.source ∨ source = e.source ∧ target < e.target) := by omega
  rw [tally, if_neg hb, if_pos ⟨hs, ht⟩]

theorem tally_after (h : e.source < source ∨ e.source = source ∧ e.target < target) :
    tally source target (e :: edges) = e :: tally source target edges := by
  have hb : ¬ (source < e.source ∨ source = e.source ∧ target < e.target) := by omega
  have hs : ¬ (source = e.source ∧ target = e.target) := by omega
  rw [tally, if_neg hb, if_neg hs]

/-- The pair that comes first is counted in front of the other one or at the same entry as before, and so
neither count disturbs the other. -/
theorem tally_comm_of_before (h : source < source' ∨ source = source' ∧ target < target')
    (edges : List MergedEdge) :
    tally source target (tally source' target' edges) =
      tally source' target' (tally source target edges) := by
  induction edges with
  | nil =>
    rw [tally, tally_before h, tally, tally_after h, tally]
  | cons e edges ih =>
    have hcases : (source' < e.source ∨ source' = e.source ∧ target' < e.target) ∨
        (source' = e.source ∧ target' = e.target) ∨
        (e.source < source' ∨ e.source = source' ∧ e.target < target') := by omega
    rcases hcases with hb | ⟨hs, ht⟩ | ha
    · rw [tally_before hb, tally_before h, tally_before (e := e) (by omega), tally_after h,
        tally_before hb]
    · have hx : source < e.source ∨ source = e.source ∧ target < e.target := by omega
      rw [tally_same hs ht, tally_before (e := { e with count := e.count + 1 }) hx, tally_before hx,
        tally_after h, tally_same hs ht]
    · have hx : (source < e.source ∨ source = e.source ∧ target < e.target) ∨
          (source = e.source ∧ target = e.target) ∨
          (e.source < source ∨ e.source = source ∧ e.target < target) := by omega
      rcases hx with hx | ⟨hs, ht⟩ | hx
      · rw [tally_after ha, tally_before hx, tally_before hx, tally_after h, tally_after ha]
      · rw [tally_after ha, tally_same hs ht, tally_same hs ht,
          tally_after (e := { e with count := e.count + 1 }) ha]
      · rw [tally_after ha, tally_after hx, tally_after hx, tally_after ha, ih]

theorem tally_comm (source target source' target' : Nat) (edges : List MergedEdge) :
    tally source target (tally source' target' edges) =
      tally source' target' (tally source target edges) := by
  have hcases : (source < source' ∨ source = source' ∧ target < target') ∨
      (source = source' ∧ target = target') ∨
      (source' < source ∨ source' = source ∧ target' < target) := by omega
  rcases hcases with h | ⟨rfl, rfl⟩ | h
  · exact tally_comm_of_before h edges
  · rfl
  · exact (tally_comm_of_before h edges).symm

end Tally

namespace Projection

variable {p q : Projection}

/-- The positions of the ends of an edge, if both are on screen. -/
def positions? (p : Projection) (ends : String × String) : Option (Nat × Nat) := do
  return (← p.position? ends.1, ← p.position? ends.2)

theorem mergedEdges_eq (p : Projection) :
    p.mergedEdges = ((p.activeEdges.map RoutedEdge.ends).filterMap p.positions?).foldl
      (fun edges ends => tally ends.1 ends.2 edges) [] := by
  rw [List.foldl_filterMap, List.foldl_map, mergedEdges]
  congr 1
  funext edges e
  rw [positions?, RoutedEdge.ends]
  cases p.position? e.sourceVisible <;> cases p.position? e.targetVisible <;> rfl

theorem positions?_congr (h : p.nodes = q.nodes) : p.positions? = q.positions? := by
  funext ends
  simp only [positions?, position?, h]

theorem childrenOf_congr (h : p.nodes = q.nodes) : p.childrenOf = q.childrenOf := by
  funext id
  rw [childrenOf, childrenOf, h]

theorem topLevel_congr (h : p.nodes = q.nodes) (f : Folding) : p.topLevel f = q.topLevel f := by
  rw [topLevel, topLevel, h, childrenOf_congr h]

theorem figure_congr (h : p.nodes = q.nodes) (f : Folding) (levels : Nat) :
    p.figure f levels = q.figure f levels := by
  induction levels with
  | zero => rfl
  | succ levels ih =>
    funext ⟨node, number⟩
    rw [figure, figure, childrenOf_congr h, ih]

namespace Alike

theorem mergedEdges_eq (h : p.Alike q) : p.mergedEdges = q.mergedEdges := by
  rw [p.mergedEdges_eq, q.mergedEdges_eq, positions?_congr h.nodes]
  apply (h.drawn.filterMap q.positions?).foldl_eq'
  intro a _ b _ edges
  exact tally_comm ..

/-- Projections that show the same make the same drawing. -/
theorem drawing_eq (h : p.Alike q) (f : Folding) : p.drawing f = q.drawing f := by
  rw [drawing, drawing, topLevel_congr h.nodes, figure_congr h.nodes, h.nodes, h.mergedEdges_eq]

theorem exportAs_eq (h : p.Alike q) : p.exportAs = q.exportAs := by
  funext f format
  rw [exportAs, exportAs, h.drawing_eq, h.nodes]

end Alike

end Projection

end Foldergram
