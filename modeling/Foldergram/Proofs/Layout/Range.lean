import Foldergram.Proofs.Layout.Nesting
import Mathlib.Algebra.GroupWithZero.Nat

/-!
Layouts stay in the coordinate range. Each item adds at most a fixed share to the width and to the height of
the folders around it, so a tree with few enough items can be laid out whatever is open.
-/

namespace Foldergram

namespace Packing

variable {c : Cursor} {size : Size}

/-- The width of all boxes side by side, each with a gap behind it. -/
def totalWidth (sizes : List Size) : Nat :=
  (sizes.map (·.width + gap)).sum

/-- The height of all boxes one below the other, each with a gap. -/
def totalHeight (sizes : List Size) : Nat :=
  (sizes.map (·.height + gap)).sum

/-- A wrap goes back to the border, and down by the height of the row and a gap. -/
theorem Cursor.wrap_fits (c : Cursor) (limit width : Nat) (hx : c.x + width ≤ coordinateLimit)
    (hy : c.bottom + gap ≤ coordinateLimit) : ∃ start, c.wrap limit width = .ok start ∧
      start.x ≤ c.x ∧ start.extent = c.extent ∧ (start = c ∨ start.bottom = start.y ∧
        start.y = c.bottom + gap) := by
  simp only [Cursor.bottom] at hy ⊢
  have hright : plus c.x width = .ok (c.x + width) := plus_of_le hx
  by_cases hcross : limit < c.x + width ∧ padding < c.x
  · have hrow : plus c.rowHeight gap = .ok (c.rowHeight + gap) := plus_of_le (by omega)
    have hdown : plus c.y (c.rowHeight + gap) = .ok (c.y + (c.rowHeight + gap)) := plus_of_le (by omega)
    refine ⟨{ c with x := padding, y := c.y + (c.rowHeight + gap), rowHeight := 0 }, ?_,
      Nat.le_of_lt hcross.2, rfl, Or.inr ⟨rfl, (Nat.add_assoc ..).symm⟩⟩
    simp only [Cursor.wrap, hright, hrow, hdown, bind, Except.bind, pure, Except.pure, if_pos hcross]
  · refine ⟨c, ?_, Nat.le_refl _, rfl, Or.inl rfl⟩
    simp only [Cursor.wrap, hright, bind, Except.bind, pure, Except.pure, if_neg hcross]

theorem Cursor.advance_fits (hx : c.x + (size.width + gap) ≤ coordinateLimit) :
    c.advance size = .ok { c with
      x := c.x + (size.width + gap)
      rowHeight := max c.rowHeight size.height
      extent := max c.extent (c.x + (size.width + gap)) } := by
  have hstep : plus size.width gap = .ok (size.width + gap) := plus_of_le (by omega)
  have hnext : plus c.x (size.width + gap) = .ok (c.x + (size.width + gap)) := plus_of_le hx
  simp only [Cursor.advance, hstep, hnext, bind, Except.bind, pure, Except.pure]

/-- One step of the loop moves the cursor by no more than the box and a gap, in each direction. The right end
that a wrap tests is one of the sums that are in range. -/
theorem step_fits (c : Cursor) (limit : Nat) (size : Size)
    (hx : c.x + (size.width + gap) ≤ coordinateLimit)
    (hy : c.bottom + (size.height + gap) ≤ coordinateLimit) :
    ∃ start next, c.wrap limit size.width = .ok start ∧ start.advance size = .ok next ∧
      next.x ≤ c.x + (size.width + gap) ∧ next.bottom ≤ c.bottom + (size.height + gap) ∧
      next.extent ≤ max c.extent (c.x + (size.width + gap)) := by
  obtain ⟨start, hw, hsx, hse, hrow⟩ := c.wrap_fits limit size.width (by omega) (by omega)
  refine ⟨start, _, hw, Cursor.advance_fits (by omega), ?_, ?_, ?_⟩
  · simp only
    omega
  · simp only [Cursor.bottom] at hrow ⊢
    rcases hrow with rfl | hrow
    · omega
    · omega
  · simp only
    omega

theorem place_fits (c : Cursor) (limit : Nat) (sizes : List Size)
    (hx : c.x + totalWidth sizes ≤ coordinateLimit)
    (hy : c.bottom + totalHeight sizes ≤ coordinateLimit) :
    ∃ positions last, place limit c sizes = .ok (positions, last) ∧
      last.extent ≤ max c.extent (c.x + totalWidth sizes) ∧
      last.bottom ≤ c.bottom + totalHeight sizes := by
  induction sizes generalizing c with
  | nil => exact ⟨[], c, rfl, by omega, by omega⟩
  | cons size sizes ih =>
    simp only [totalWidth, totalHeight, List.map_cons, List.sum_cons] at hx hy ih ⊢
    obtain ⟨start, next, hw, ha, hnx, hny, hne⟩ :=
      step_fits c limit size (by omega) (by omega)
    obtain ⟨positions, last, hp, hle, hlb⟩ := ih next (by omega) (by omega)
    refine ⟨⟨start.x, start.y⟩ :: positions, last, ?_, by omega, by omega⟩
    simp only [place, hw, ha, hp, bind, Except.bind, pure, Except.pure]

end Packing

open Packing in
theorem pack_fits (sizes : List Size) (hx : padding + totalWidth sizes ≤ coordinateLimit)
    (hy : padding + headerHeight + totalHeight sizes + padding ≤ coordinateLimit) :
    ∃ p, pack sizes = .ok p ∧ p.size.width ≤ padding + totalWidth sizes ∧
      p.size.height ≤ padding + headerHeight + totalHeight sizes + padding := by
  have hstart : ({} : Cursor).bottom = padding + headerHeight := rfl
  obtain ⟨positions, last, hp, hle, hlb⟩ :=
    place_fits {} (rowLimit sizes.length) sizes hx (by omega)
  simp only [Cursor.bottom] at hlb hstart
  have hrow : plus last.y last.rowHeight = .ok (last.y + last.rowHeight) := plus_of_le (by omega)
  have hall : plus (last.y + last.rowHeight) padding = .ok (last.y + last.rowHeight + padding) :=
    plus_of_le (by omega)
  refine ⟨⟨positions, last.extent, last.y + last.rowHeight + padding⟩, ?_, ?_, ?_⟩
  · simp only [pack, hp, hrow, hall, bind, Except.bind, pure, Except.pure]
  · simp only at hle ⊢
    omega
  · simp only
    omega

/-- What an item adds at most to a width: the widest closed folder and a gap. -/
def shareWidth : Nat := Folding.greatestWidth + gap

/-- What an item adds at most to a height: the borders and the title bar of an open folder, and a gap. -/
def shareHeight : Nat := padding + headerHeight + padding + gap

/-- A size that so many items can account for. -/
def Size.Covered (size : Size) (items : Nat) : Prop :=
  size.width + gap ≤ shareWidth * items ∧ size.height + gap ≤ shareHeight * items

theorem fileSize_covered : fileSize.Covered 1 := by
  unfold Size.Covered
  decide

theorem collapsed_covered (name : String) {n : Nat} (hn : 0 < n) :
    Size.Covered ⟨collapsedWidth name, headerHeight⟩ n := by
  simp only [Size.Covered, collapsedWidth, Folding.leastWidth, Folding.greatestWidth, headerHeight,
    shareWidth, shareHeight, padding, gap]
  omega

namespace Item

variable {f : Folding} {items : List Item}

/-- An item that is arranged without leaving the coordinate range, at a size that it accounts for. -/
def Arrangeable (f : Folding) (x : Item) : Prop :=
  ∃ a, x.arrange f = .ok a ∧ a.size.Covered x.all.length

theorem arrangeAll_fits (h : ∀ x ∈ items, x.Arrangeable f) : ∃ parts, arrangeAll f items = .ok parts ∧
    Packing.totalWidth (parts.map (·.2.size)) ≤ shareWidth * (items.flatMap all).length ∧
    Packing.totalHeight (parts.map (·.2.size)) ≤ shareHeight * (items.flatMap all).length := by
  induction items with
  | nil => exact ⟨[], rfl, Nat.zero_le _, Nat.zero_le _⟩
  | cons x items ih =>
    obtain ⟨part, hp, hw, hh⟩ := h x (List.mem_cons_self ..)
    obtain ⟨parts, hps, hws, hhs⟩ := ih (fun y hy => h y (List.mem_cons_of_mem _ hy))
    refine ⟨(x.id, part) :: parts, ?_, ?_, ?_⟩
    · simp only [arrangeAll, hp, hps, bind, Except.bind, pure, Except.pure]
    · simp only [Packing.totalWidth, List.map_cons, List.sum_cons, List.flatMap_cons, List.length_append,
        Nat.mul_add] at hws ⊢
      omega
    · simp only [Packing.totalHeight, List.map_cons, List.sum_cons, List.flatMap_cons, List.length_append,
        Nat.mul_add] at hhs ⊢
      omega

/-- By induction on the item. An open folder adds its borders to what its contents account for, and that is
less than the share of one item. -/
theorem arrangeable (f : Folding) (x : Item) (h : shareWidth * x.all.length ≤ coordinateLimit) :
    x.Arrangeable f := by
  induction x with
  | file name source => exact ⟨⟨fileSize, []⟩, rfl, fileSize_covered⟩
  | folder id name contents ih =>
    by_cases hc : f.isCollapsed id = true
    · refine ⟨⟨⟨collapsedWidth name, headerHeight⟩, []⟩, by rw [arrange, if_pos hc], ?_⟩
      exact collapsed_covered name (by simp)
    · rw [all_folder, List.length_cons] at h
      have hin : ∀ x ∈ contents, x.Arrangeable f := by
        intro x hx
        have hle : x.all.length ≤ (contents.flatMap all).length :=
          (List.sublist_flatten_of_mem (List.mem_map_of_mem hx)).length_le
        exact ih x hx (Nat.le_trans (Nat.mul_le_mul_left _ (by omega)) h)
      obtain ⟨parts, hps, hw, hh⟩ := arrangeAll_fits hin
      generalize hn : (contents.flatMap all).length = n at h hw hh
      simp only [shareWidth, shareHeight, Folding.greatestWidth, padding, headerHeight, gap, coordinateLimit]
        at h hw hh
      obtain ⟨packing, hpack, hpw, hph⟩ := pack_fits (parts.map (·.2.size))
        (by simp only [padding, coordinateLimit]; omega)
        (by simp only [padding, headerHeight, coordinateLimit]; omega)
      refine ⟨⟨packing.size, placeParts parts packing.positions⟩, ?_, ?_⟩
      · simp only [arrange, if_neg hc, hps, hpack, bind, Except.bind, pure, Except.pure]
      · rw [all_folder, List.length_cons, hn]
        simp only [Size.Covered, shareWidth, shareHeight, Folding.greatestWidth, padding, headerHeight, gap]
          at hpw hph ⊢
        omega

end Item

variable {f : Folding} {c : Canvas} {files : List SourceFile}

theorem FolderTree.length_display (t : FolderTree) : t.root.display.all.length = t.items.length := by
  rw [(Item.all_display_perm t.root).length_eq, List.length_map]
  rfl

theorem FolderTree.exists_layout {t : FolderTree} (hn : shareWidth * t.items.length ≤ coordinateLimit)
    (f : Folding) : ∃ boxes, t.layout f = .ok boxes := by
  obtain ⟨whole, hw, -⟩ := Item.arrangeable f t.root.display (by rw [length_display]; exact hn)
  exact ⟨_, by rw [layout, hw]; rfl⟩

theorem Canvas.Tiled.corner_eq (ht : c.Tiled f) (h : c.tree.WellFormed) {id : String}
    (hs : c.tree.Shows f id) : c.corner id = .ok ⟨(c.absolute id).x, (c.absolute id).y⟩ := by
  obtain ⟨corner, hc, he⟩ := bind_eq_ok.mp (ht.frame_eq h hs)
  rw [hc, ← pure_eq_ok.mp he]
  rfl

/-- A tree of few enough items is laid out without leaving the coordinate range, whatever is open. The root
is bounded by the number of items in both directions, and every visible item has its corner inside the
root's box. -/
theorem layout_in_range (hb : FolderTree.build files = .ok c.tree)
    (hn : 1020 * c.tree.items.length ≤ 2 ^ 32 - 1) (f : Folding) :
    ∃ c', c.layout f = .ok c' ∧
      (c'.box rootId).width ≤ 1020 * c.tree.items.length ∧
      (c'.box rootId).height ≤ 160 * c.tree.items.length ∧
      ∀ id, c.tree.Shows f id → ∃ corner, c'.corner id = .ok corner ∧
        corner.x ≤ (c'.box rootId).width ∧ corner.y ≤ (c'.box rootId).height := by
  have hwf := (FolderTree.wellFormed_build hb).1
  obtain ⟨whole, hw, hwidth, hheight⟩ :=
    Item.arrangeable f c.tree.root.display (by rw [FolderTree.length_display]; exact hn)
  rw [FolderTree.length_display] at hwidth hheight
  have hl : c.tree.layout f = .ok ((rootId, Box.ofCorner ⟨0, 0⟩ whole.size) :: whole.inside) := by
    rw [FolderTree.layout, hw]
    rfl
  have hc := Canvas.layout_of_ok hwf hl
  refine ⟨_, hc, ?_⟩
  generalize c.write _ = c' at hc ⊢
  obtain ⟨boxes, hboxes, hbox⟩ := Canvas.box_of_layout hwf hc
  obtain rfl := Except.ok.inj (hl.symm.trans hboxes)
  have hroot : c'.box rootId = Box.ofCorner ⟨0, 0⟩ whole.size := hbox _ (List.mem_cons_self ..)
  refine ⟨?_, ?_, ?_⟩
  · rw [hroot]
    exact Nat.le_trans (Nat.le_add_right _ _) hwidth
  · rw [hroot]
    exact Nat.le_trans (Nat.le_add_right _ _) hheight
  · intro id hs
    have ht := Canvas.layout_tiled hwf hc
    rw [← Canvas.tree_layout hc] at hwf hs
    refine ⟨_, ht.corner_eq hwf hs, ?_⟩
    have hin := ht.within_root hwf hs
    rw [ht.absolute_rootId hwf] at hin
    simp only [Box.Within] at hin ⊢
    omega

theorem layout_in_range_nested :
    let f := Folding.empty.set "a/b" false
    let c : Canvas := { tree := FolderTree.nested }
    FolderTree.build FolderTree.nestedFiles = .ok c.tree ∧ c.tree.items.length = 6 ∧
      1020 * c.tree.items.length ≤ 2 ^ 32 - 1 ∧ c.tree.Shows f "a/d" ∧
      ∃ c', c.layout f = .ok c' ∧ (c'.box rootId).width ≤ 6120 ∧ (c'.box rootId).height ≤ 960 ∧
        ∃ corner, c'.corner "a/d" = .ok corner ∧
          corner.x ≤ (c'.box rootId).width ∧ corner.y ≤ (c'.box rootId).height := by
  intro f c
  have hs : c.tree.Shows f "a/d" := ⟨by decide, by decide +kernel⟩
  have hn : 1020 * c.tree.items.length ≤ 2 ^ 32 - 1 := by decide
  obtain ⟨c', hl, hw, hh, hcorner⟩ := layout_in_range FolderTree.build_nestedFiles hn f
  exact ⟨FolderTree.build_nestedFiles, rfl, hn, hs, c', hl, hw, hh, hcorner "a/d" hs⟩

end Foldergram
