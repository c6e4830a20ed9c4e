import Foldergram.Proofs.Projection.Nodes
import Foldergram.Proofs.Projection.Routing
import Foldergram.Proofs.Tree.Alike

/-!
Routing dependencies in any order. Where an edge is drawn depends on its own ends alone; its place among
the dependencies enters only its id.
-/

namespace Foldergram

variable {t t' : FolderTree} {f : Folding} {c c' : Canvas} {edges edges' : List Dependency}

/-- The nodes at which an edge is drawn. -/
def RoutedEdge.ends (e : RoutedEdge) : String × String :=
  (e.sourceVisible, e.targetVisible)

/-- Where a dependency is drawn, if both its ends name items. -/
def drawnEnds (t : FolderTree) (f : Folding) (d : Dependency) : Option (String × String) :=
  if d.source ∈ t.items.map Item.id ∧ d.target ∈ t.items.map Item.id then
    some (visibleAncestor t.upwardLinks f d.source, visibleAncestor t.upwardLinks f d.target)
  else none

theorem FolderTree.Alike.drawnEnds_eq (h : t.Alike t') (f : Folding) : drawnEnds t f = drawnEnds t' f := by
  funext d
  unfold drawnEnds
  by_cases hd : d.source ∈ t.items.map Item.id ∧ d.target ∈ t.items.map Item.id
  · have hd' := And.intro (h.mem_items.mp hd.1) (h.mem_items.mp hd.2)
    rw [if_pos hd, if_pos hd', h.visibleAncestor_eq hd.1, h.visibleAncestor_eq hd.2]
  · have hd' : ¬ (d.source ∈ t'.items.map Item.id ∧ d.target ∈ t'.items.map Item.id) := by
      rwa [← h.mem_items, ← h.mem_items]
    rw [if_neg hd, if_neg hd']

theorem map_ends_route (t : FolderTree) (f : Folding) (ordinal : Nat) (d : Dependency) :
    (routed? (route t t.upwardLinks f ordinal d)).map RoutedEdge.ends = drawnEnds t f d := by
  by_cases h : t.Connects d
  · rw [route_of_connects h]
    exact (if_pos h).symm
  · rw [route_of_not_connects h]
    exact (if_neg h).symm

theorem ends_project (c : Canvas) (edges : List Dependency) (f : Folding) :
    (c.project edges f).edges.map RoutedEdge.ends = edges.filterMap (drawnEnds c.tree f) := by
  have hfst : edges.zipIdx.map Prod.fst = edges := by simp
  calc
    _ = edges.zipIdx.filterMap (fun p =>
        (routed? (route c.tree c.tree.upwardLinks f p.2 p.1)).map RoutedEdge.ends) := by
      simp only [Canvas.project, routeAll, List.filterMap_map, List.map_filterMap, Function.comp_def]
    _ = edges.zipIdx.filterMap (drawnEnds c.tree f ∘ Prod.fst) := by
      simp only [map_ends_route, Function.comp_def]
    _ = edges.filterMap (drawnEnds c.tree f) := by
      rw [← List.filterMap_map, hfst]

/-- An edge is suppressed exactly if it would lead from a node to itself. -/
theorem suppressed_project {e : RoutedEdge} (h : e ∈ (c.project edges f).edges) :
    e.suppressed = (e.ends.1 == e.ends.2) := by
  obtain ⟨d, -, ordinal, hr⟩ := exists_route_of_mem_edges h
  by_cases hd : c.tree.Connects d
  · rw [route_of_connects hd] at hr
    cases hr
    rfl
  · rw [route_of_not_connects hd] at hr
    cases hr

theorem length_routed_add_length_dangling (results : List (Except DanglingEdge RoutedEdge)) :
    (results.filterMap routed?).length + (results.filterMap dangling?).length = results.length := by
  induction results with
  | nil => rfl
  | cons r results ih =>
    cases r <;> simp only [List.filterMap_cons, routed?, dangling?, List.length_cons] <;> omega

/-- Every dependency is either routed or skipped. -/
theorem length_edges_add_length_skipped (c : Canvas) (edges : List Dependency) (f : Folding) :
    (c.project edges f).edges.length + (c.project edges f).skipped.length = edges.length := by
  have hl : (routeAll c.tree f edges).length = edges.length := by simp [routeAll]
  exact (length_routed_add_length_dangling (routeAll c.tree f edges)).trans hl

theorem ends_activeEdges_project (c : Canvas) (edges : List Dependency) (f : Folding) :
    (c.project edges f).activeEdges.map RoutedEdge.ends =
      (edges.filterMap (drawnEnds c.tree f)).filter (fun ends => ends.1 != ends.2) := by
  rw [← ends_project, List.filter_map]
  apply congrArg (List.map RoutedEdge.ends)
  apply List.filter_congr
  intro e he
  simp [suppressed_project he, bne]

theorem suppressedCount_project (c : Canvas) (edges : List Dependency) (f : Folding) :
    (c.project edges f).suppressedCount =
      (edges.filterMap (drawnEnds c.tree f)).countP (fun ends => ends.1 == ends.2) := by
  rw [← ends_project, List.countP_map]
  apply List.countP_congr
  intro e he
  simp [suppressed_project he]

theorem externalIds_eq (p : Projection) :
    externalIds p.edges = (p.activeEdges.map RoutedEdge.ends).flatMap fun ends => [ends.1, ends.2] := by
  rw [List.flatMap_map]
  rfl

/-- Projections that show the same, though their edges may stand in another order. -/
structure Projection.Alike (p q : Projection) : Prop where
  nodes : p.nodes = q.nodes
  drawn : (p.activeEdges.map RoutedEdge.ends).Perm (q.activeEdges.map RoutedEdge.ends)
  suppressed : p.suppressedCount = q.suppressedCount
  skipped : p.skipped.length = q.skipped.length

theorem project_alike (h : c.tree.Alike c'.tree) (he : edges.Perm edges')
    (hbox : ∀ id ∈ c.tree.visibleIds f, c.box id = c'.box id)
    (hcolor : ∀ id ∈ c.tree.visibleIds f, c.color id = c'.color id) :
    (c.project edges f).Alike (c'.project edges' f) := by
  have hends : (edges.filterMap (drawnEnds c.tree f)).Perm (edges'.filterMap (drawnEnds c'.tree f)) := by
    rw [h.drawnEnds_eq]
    exact he.filterMap _
  have hdrawn : ((c.project edges f).activeEdges.map RoutedEdge.ends).Perm
      ((c'.project edges' f).activeEdges.map RoutedEdge.ends) := by
    rw [ends_activeEdges_project, ends_activeEdges_project]
    exact hends.filter _
  refine ⟨?_, hdrawn, ?_, ?_⟩
  · refine Canvas.nodes_project_congr h.display hbox hcolor ?_
    intro id
    rw [externalIds_eq, externalIds_eq]
    exact (hdrawn.flatMap_right _).mem_iff
  · rw [suppressedCount_project, suppressedCount_project]
    exact hends.countP_eq _
  · have hrouted : (c.project edges f).edges.length = (c'.project edges' f).edges.length := by
      have hl := hends.length_eq
      rwa [← ends_project, ← ends_project, List.length_map, List.length_map] at hl
    have hc := length_edges_add_length_skipped c edges f
    have hc' := length_edges_add_length_skipped c' edges' f
    have hlength := he.length_eq
    omega

end Foldergram
