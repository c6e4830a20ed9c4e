import Foldergram.Proofs.Folding
import Foldergram.Proofs.Projection.EdgeOrder

/-!
Closing more folders. What is visible then was visible before, in the same order, and an edge is drawn where
its ends from before are shown.
-/

namespace Foldergram

variable {t : FolderTree} {f g : Folding} {id : String} {c d : Canvas}

namespace FolderTree

/-- Every folder of the tree that `f` closes is closed by `g`. -/
def ClosesMore (t : FolderTree) (f g : Folding) : Prop :=
  ∀ id, t.hasFolder id = true → f.isCollapsed id = true → g.isCollapsed id = true

theorem closesMore_set (t : FolderTree) (f : Folding) (id : String) : t.ClosesMore f (f.set id false) := by
  intro other _ h
  rw [Folding.isCollapsed_set]
  split
  · rfl
  · exact h

/-- The way up from what stands for an item is the rest of the way up from the item. -/
theorem WellFormed.visibleAncestor_visibleAncestor (h : t.WellFormed) (hc : t.ClosesMore f g)
    (hid : id ∈ t.items.map Item.id) :
    visibleAncestor t.upwardLinks g (visibleAncestor t.upwardLinks f id) =
      visibleAncestor t.upwardLinks g id := by
  rcases h.visibleAncestor_eq_self_or_closed (f := f) hid with he | ⟨hfolder, hclosed⟩
  · rw [he]
  · exact (h.visibleAncestor_of_closed hid (t.visibleAncestor_mem f id) (hc _ hfolder hclosed)).symm

end FolderTree

theorem Item.visible_sublist_of_closed {x : Item} (above : Option String)
    (h : ∀ y ∈ x.all, y.isFolder = true → f.isCollapsed y.id = true → g.isCollapsed y.id = true) :
    (x.visible g above).Sublist (x.visible f above) := by
  induction x generalizing above with
  | file name source => exact List.Sublist.refl _
  | folder id name contents ih =>
    rw [visible_folder, visible_folder]
    refine List.Sublist.cons_cons _ ?_
    by_cases hg : g.isExpanded id = true
    · have hf : f.isExpanded id = true := by
        by_contra hf
        have hclosed : g.isCollapsed id = true :=
          h (.folder id name contents) (mem_all_self _) rfl (by simpa using hf)
        simp [Folding.isExpanded, hclosed] at hg
      rw [if_pos hg, if_pos hf]
      refine List.Sublist.flatMap_right contents (fun x hx => ih x hx (some id) ?_)
      intro y hy
      refine h y ?_
      rw [all_folder]
      exact List.mem_cons_of_mem _ (List.mem_flatMap.mpr ⟨x, hx, hy⟩)
    · rw [if_neg hg]
      exact List.nil_sublist _

namespace FolderTree

theorem WellFormed.visible_sublist (h : t.WellFormed) (hc : t.ClosesMore f g) :
    (t.visible g).Sublist (t.visible f) := by
  apply Item.visible_sublist_of_closed
  intro y hy hfolder hclosed
  obtain ⟨z, hz, rfl⟩ := List.mem_map.mp ((Item.all_display_perm t.root).mem_iff.mp hy)
  rw [Item.isFolder_display] at hfolder
  rw [Item.id_display] at hclosed ⊢
  exact hc z.id (h.hasFolder_iff.mpr ⟨z, hz, rfl, hfolder⟩) hclosed

theorem WellFormed.visibleIds_sublist (h : t.WellFormed) (hc : t.ClosesMore f g) :
    (t.visibleIds g).Sublist (t.visibleIds f) :=
  (h.visible_sublist hc).map _

theorem WellFormed.drawnEnds_eq (h : t.WellFormed) (hc : t.ClosesMore f g) (d : Dependency) :
    drawnEnds t g d = (drawnEnds t f d).map fun ends =>
      (visibleAncestor t.upwardLinks g ends.1, visibleAncestor t.upwardLinks g ends.2) := by
  unfold drawnEnds
  split
  · rename_i hd
    rw [Option.map_some, h.visibleAncestor_visibleAncestor hc hd.1,
      h.visibleAncestor_visibleAncestor hc hd.2]
  · rfl

theorem WellFormed.filterMap_drawnEnds (h : t.WellFormed) (hc : t.ClosesMore f g) (edges : List Dependency) :
    edges.filterMap (drawnEnds t g) = (edges.filterMap (drawnEnds t f)).map fun ends =>
      (visibleAncestor t.upwardLinks g ends.1, visibleAncestor t.upwardLinks g ends.2) := by
  rw [List.map_filterMap]
  exact congrArg (edges.filterMap ·) (funext (h.drawnEnds_eq hc))

end FolderTree

/-- One dependency under two foldings: it is skipped for the same reason, or routed from the same ends, and
what is suppressed when less is closed stays suppressed. -/
inductive RoutedAlike : Except DanglingEdge RoutedEdge → Except DanglingEdge RoutedEdge → Prop
  | skipped (reason : DanglingEdge) : RoutedAlike (.error reason) (.error reason)
  | routed {e e' : RoutedEdge} : e.id = e'.id → e.source = e'.source → e.target = e'.target →
      (e.suppressed = true → e'.suppressed = true) → RoutedAlike (.ok e) (.ok e')

theorem route_alike (h : t.WellFormed) (hc : t.ClosesMore f g) (ordinal : Nat) (d : Dependency) :
    RoutedAlike (route t t.upwardLinks f ordinal d) (route t t.upwardLinks g ordinal d) := by
  by_cases hd : t.Connects d
  · rw [route_of_connects hd, route_of_connects hd]
    refine .routed rfl rfl rfl ?_
    intro he
    rw [beq_iff_eq] at he ⊢
    rw [← h.visibleAncestor_visibleAncestor hc hd.1, ← h.visibleAncestor_visibleAncestor hc hd.2, he]
  · rw [route_of_not_connects hd, route_of_not_connects hd]
    exact .skipped _

/-- The edges of two projections of one tree, when the second one closes more. -/
theorem edges_alike (h : c.tree.WellFormed) (hd : c.tree = d.tree) (hc : c.tree.ClosesMore f g)
    (edges : List Dependency) :
    List.Forall₂ (fun e e' => e.id = e'.id ∧ e.source = e'.source ∧ e.target = e'.target ∧
        (e.suppressed = true → e'.suppressed = true))
      (c.project edges f).edges (d.project edges g).edges ∧
    (c.project edges f).skipped = (d.project edges g).skipped := by
  have hall : List.Forall₂ RoutedAlike (routeAll c.tree f edges) (routeAll d.tree g edges) := by
    rw [← hd, routeAll, routeAll, List.forall₂_map_left_iff, List.forall₂_map_right_iff,
      List.forall₂_same]
    intro p _
    exact route_alike h hc p.2 p.1
  simp only [Canvas.project]
  generalize routeAll c.tree f edges = results at hall ⊢
  generalize routeAll d.tree g edges = results' at hall ⊢
  induction hall with
  | nil => exact ⟨.nil, rfl⟩
  | cons hr _ ih =>
    cases hr with
    | skipped reason => exact ⟨ih.1, congrArg (reason :: ·) ih.2⟩
    | routed hid hs ht hsup => exact ⟨.cons ⟨hid, hs, ht, hsup⟩ ih.1, ih.2⟩

end Foldergram
