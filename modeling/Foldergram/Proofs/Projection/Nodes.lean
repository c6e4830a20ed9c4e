import Foldergram.Projection.Route
import Foldergram.Proofs.Layout.Pass

/-!
What a projection reads. A layout rewrites the box of every visible item, so nothing that an earlier
layout left on the canvas reaches the nodes of a projection.
-/

namespace Foldergram

variable {c c' d d' : Canvas} {f : Folding} {edges edges' : List Dependency}

theorem FolderTree.layout_congr {t t' : FolderTree} (h : t.root.display = t'.root.display) :
    t.layout f = t'.layout f := by
  rw [layout, layout, h]

theorem FolderTree.visible_congr {t t' : FolderTree} (h : t.root.display = t'.root.display) :
    t.visible f = t'.visible f := by
  rw [visible, visible, h]

namespace Canvas

/-- Trees that are displayed alike are both laid out, or both run out of the coordinate range. -/
theorem layout_both (hwf : c.tree.WellFormed) (hwf' : d.tree.WellFormed)
    (h : c.tree.root.display = d.tree.root.display) (f : Folding) :
    (∃ c' d', c.layout f = .ok c' ∧ d.layout f = .ok d') ∨
      ∃ e, c.layout f = .error e ∧ d.layout f = .error e := by
  rw [layout_eq hwf, layout_eq hwf', ← FolderTree.layout_congr h]
  cases c.tree.layout f with
  | error e => exact Or.inr ⟨e, rfl, rfl⟩
  | ok boxes => exact Or.inl ⟨_, _, rfl, rfl⟩

/-- Trees that are displayed alike get the same boxes, whatever was on the canvas before. -/
theorem box_layout_congr (hwf : c.tree.WellFormed) (hwf' : d.tree.WellFormed)
    (h : c.tree.root.display = d.tree.root.display) (hc : c.layout f = .ok c')
    (hd : d.layout f = .ok d') : ∀ id ∈ c'.tree.visibleIds f, c'.box id = d'.box id := by
  obtain ⟨boxes, hb, hbox⟩ := box_of_layout hwf hc
  obtain ⟨boxes', hb', hbox'⟩ := box_of_layout hwf' hd
  obtain rfl : boxes = boxes' := by
    rw [FolderTree.layout_congr h, hb'] at hb
    exact (Except.ok.inj hb).symm
  intro id hid
  rw [tree_layout hc, ← FolderTree.keys_layout hb] at hid
  obtain ⟨entry, hm, rfl⟩ := List.mem_map.mp hid
  rw [hbox entry hm, hbox' entry hm]

/-- The nodes depend on the displayed tree and on the boxes, colours and flags of what is visible. -/
theorem nodes_project_congr (h : c.tree.root.display = d.tree.root.display)
    (hbox : ∀ id ∈ c.tree.visibleIds f, c.box id = d.box id)
    (hcolor : ∀ id ∈ c.tree.visibleIds f, c.color id = d.color id)
    (hflags : ∀ id, id ∈ externalIds (c.project edges f).edges ↔
      id ∈ externalIds (d.project edges' f).edges) :
    (c.project edges f).nodes = (d.project edges' f).nodes := by
  simp only [project] at hflags ⊢
  rw [← FolderTree.visible_congr h]
  apply List.map_congr_left
  rintro ⟨x, folder⟩ hx
  have hid : x.id ∈ c.tree.visibleIds f := List.mem_map_of_mem (f := fun v => v.1.id) hx
  simp only [node, hbox x.id hid, hcolor x.id hid, List.contains_eq_mem, hflags x.id]

theorem project_congr (ht : c.tree = d.tree) (hcolors : c.colors = d.colors)
    (hbox : ∀ id ∈ c.tree.visibleIds f, c.box id = d.box id) :
    c.project edges f = d.project edges f := by
  have hedges : (c.project edges f).edges = (d.project edges f).edges := by
    simp only [project, ht]
  have hskipped : (c.project edges f).skipped = (d.project edges f).skipped := by
    simp only [project, ht]
  have hnodes : (c.project edges f).nodes = (d.project edges f).nodes := by
    refine nodes_project_congr (by rw [ht]) hbox ?_ (by simp [hedges])
    intro id _
    rw [color, color, hcolors]
  generalize c.project edges f = p at hedges hskipped hnodes ⊢
  generalize d.project edges f = q at hedges hskipped hnodes ⊢
  cases p
  cases q
  simp_all

/-- What a layout and a projection show depends on the tree and its colours only. -/
theorem project_layout_congr (hwf : c.tree.WellFormed) (ht : c.tree = d.tree)
    (hcolors : c.colors = d.colors) :
    (c.layout f).map (·.project edges f) = (d.layout f).map (·.project edges f) := by
  have hdisplay : c.tree.root.display = d.tree.root.display := by rw [ht]
  rcases layout_both hwf (ht ▸ hwf) hdisplay f with ⟨c', d', hc, hd⟩ | ⟨e, hc, hd⟩
  · have ht' : c'.tree = d'.tree := by rw [tree_layout hc, tree_layout hd, ht]
    have hcolors' : c'.colors = d'.colors := by rw [colors_layout hc, colors_layout hd, hcolors]
    rw [hc, hd]
    apply congrArg Except.ok
    exact project_congr ht' hcolors' (box_layout_congr hwf (ht ▸ hwf) hdisplay hc hd)
  · rw [hc, hd]

end Canvas

end Foldergram
