import Foldergram.Proofs.Layout.Pass
import Foldergram.Stats
import Mathlib.Data.List.Pairwise

/-!
Nested boxes. After a layout the box of a visible item lies inside the boxes of all folders around it,
and items that are not inside one another keep a gap between their boxes.
-/

namespace Foldergram

variable {f : Folding} {id p : String} {c c' : Canvas}

namespace Box

variable {a b outer outer' : Box}

def Within (inner outer : Box) : Prop :=
  outer.x ≤ inner.x ∧ outer.y ≤ inner.y ∧
    inner.x + inner.width ≤ outer.x + outer.width ∧ inner.y + inner.height ≤ outer.y + outer.height

/-- Within a folder's box, clear of its border and of its title bar. -/
def Inset (inner outer : Box) : Prop :=
  outer.x + padding ≤ inner.x ∧ outer.y + (padding + headerHeight) ≤ inner.y ∧
    inner.x + inner.width + gap ≤ outer.x + outer.width ∧
    inner.y + inner.height + padding ≤ outer.y + outer.height

theorem Inset.within (h : a.Inset outer) : a.Within outer := by
  unfold Inset at h
  unfold Within
  omega

theorem Within.trans (h : a.Within b) (h' : b.Within outer) : a.Within outer := by
  unfold Within at *
  omega

theorem Within.refl (a : Box) : a.Within a := by
  unfold Within
  omega

/-- Boxes within boxes that are apart are apart themselves. -/
theorem Apart.of_within (h : outer.Apart outer') (ha : a.Within outer) (hb : b.Within outer') :
    a.Apart b := by
  unfold Apart Within at *
  omega

theorem right_of_le (h : b.x + b.width ≤ coordinateLimit) : b.right = .ok (b.x + b.width) :=
  plus_of_le h

theorem bottom_of_le (h : b.y + b.height ≤ coordinateLimit) : b.bottom = .ok (b.y + b.height) :=
  plus_of_le h

/-- Boxes that are apart do not overlap, and finding this out does not leave the coordinate range. -/
theorem Apart.overlaps (h : a.Apart b) (hax : a.x + a.width ≤ coordinateLimit)
    (hay : a.y + a.height ≤ coordinateLimit) (hbx : b.x + b.width ≤ coordinateLimit)
    (hby : b.y + b.height ≤ coordinateLimit) : a.overlaps b = .ok false := by
  simp only [Box.overlaps, right_of_le hax, bottom_of_le hay, right_of_le hbx, bottom_of_le hby, bind,
    Except.bind, pure, Except.pure]
  unfold Apart at h
  split
  · split
    · split
      · simp only [Except.ok.injEq, decide_eq_false_iff_not]
        omega
      · rfl
    · rfl
  · rfl

end Box

/-- The box of an item in the coordinates of the canvas. -/
def Canvas.frame (c : Canvas) (id : String) : Checked Box := do
  return Box.ofCorner (← c.corner id) ⟨(c.box id).width, (c.box id).height⟩

/-- The sum of the offsets of several items. -/
def Canvas.offset (c : Canvas) : List String → Position
  | [] => ⟨0, 0⟩
  | id :: ids => ⟨(c.box id).x + (c.offset ids).x, (c.box id).y + (c.offset ids).y⟩

/-- The box of an item in the coordinates of the canvas, as if these had no limit. -/
def Canvas.absolute (c : Canvas) (id : String) : Box where
  x := (c.offset (id :: c.tree.ancestors id)).x
  y := (c.offset (id :: c.tree.ancestors id)).y
  width := (c.box id).width
  height := (c.box id).height

theorem foldlM_corner (c : Canvas) (ids : List String) (start : Position)
    (hx : start.x + (c.offset ids).x ≤ coordinateLimit)
    (hy : start.y + (c.offset ids).y ≤ coordinateLimit) :
    ids.foldlM (fun sum i => do return ⟨← plus sum.x (c.box i).x, ← plus sum.y (c.box i).y⟩) start =
      (.ok ⟨start.x + (c.offset ids).x, start.y + (c.offset ids).y⟩ : Checked Position) := by
  induction ids generalizing start with
  | nil => rfl
  | cons i ids ih =>
    simp only [Canvas.offset] at hx hy ⊢
    have hpx : plus start.x (c.box i).x = .ok (start.x + (c.box i).x) := plus_of_le (by omega)
    have hpy : plus start.y (c.box i).y = .ok (start.y + (c.box i).y) := plus_of_le (by omega)
    have hi := ih ⟨start.x + (c.box i).x, start.y + (c.box i).y⟩ (by simp only; omega)
      (by simp only; omega)
    rw [List.foldlM_cons]
    simp only [hpx, hpy, bind, Except.bind, pure, Except.pure] at hi ⊢
    rw [hi]
    simp [Nat.add_assoc]

theorem Canvas.frame_eq (hx : (c.absolute id).x ≤ coordinateLimit)
    (hy : (c.absolute id).y ≤ coordinateLimit) : c.frame id = .ok (c.absolute id) := by
  have hc : c.corner id = .ok ⟨(c.absolute id).x, (c.absolute id).y⟩ := by
    rw [Canvas.corner, foldlM_corner]
    · simp only [Nat.zero_add, Canvas.absolute]
    · simpa only [Nat.zero_add, Canvas.absolute] using hx
    · simpa only [Nat.zero_add, Canvas.absolute] using hy
  rw [Canvas.frame, hc]
  rfl

/-- What a layout guarantees of the boxes, each relative to the folder around it. -/
structure Canvas.Tiled (c : Canvas) (f : Folding) : Prop where
  corner : (c.box rootId).x = 0 ∧ (c.box rootId).y = 0
  fits : (c.box rootId).width ≤ coordinateLimit ∧ (c.box rootId).height ≤ coordinateLimit
  inset : ∀ {id p}, c.tree.Shows f id → c.tree.parent? id = some p →
    (c.box id).Inset { c.box p with x := 0, y := 0 }
  apart : ∀ {i j p}, c.tree.Shows f i → c.tree.Shows f j → c.tree.parent? i = some p →
    c.tree.parent? j = some p → i ≠ j → (c.box i).Apart (c.box j)

namespace Canvas

variable {x : Item} {chain : List String}

/-- By induction from the root down: the canvas holds the arrangement of every visible item. -/
theorem holds_of_place (h : c.tree.WellFormed) (hl : c.layout f = .ok c')
    (hp : c.tree.root.display.Place x chain) (hall : ∀ p ∈ chain, f.isExpanded p = true) :
    ∃ a, x.arrange f = .ok a ∧ c'.Holds x a := by
  induction hp with
  | here =>
    obtain ⟨boxes, hb, hbox⟩ := box_of_layout h hl
    obtain ⟨whole, hw, rfl⟩ := FolderTree.layout_eq_ok hb
    have hroot := hbox _ (List.mem_cons_self ..)
    refine ⟨whole, hw, ?_, ?_, fun entry he => hbox entry (List.mem_cons_of_mem _ he)⟩
    · exact congrArg Box.width hroot
    · exact congrArg Box.height hroot
  | @inside x id name contents chain hp hx ih =>
    obtain ⟨a, ha, hh⟩ := ih (fun p hp => hall p (List.mem_cons_of_mem _ hp))
    exact (Item.holds_contents (hall id (List.mem_cons_self ..)) ha hh).2 x hx

/-- The boxes in a visible open folder are those of one packing, which has given the folder its size. -/
theorem packing_of_place (h : c.tree.WellFormed) (hl : c.layout f = .ok c') {name : String}
    {contents : List Item} (hp : c.tree.root.display.Place (.folder id name contents) chain)
    (hall : ∀ p ∈ id :: chain, f.isExpanded p = true) :
    ∃ sizes packing, pack sizes = .ok packing ∧
      packing.size = ⟨(c'.box id).width, (c'.box id).height⟩ ∧
      contents.map (fun x => c'.box x.id) = packing.boxes sizes := by
  obtain ⟨a, ha, hh⟩ := holds_of_place h hl hp (fun p hp => hall p (List.mem_cons_of_mem _ hp))
  obtain ⟨⟨sizes, packing, hpack, hsize, hboxes⟩, -⟩ :=
    Item.holds_contents (hall id (List.mem_cons_self ..)) ha hh
  refine ⟨sizes, packing, hpack, ?_, hboxes⟩
  have hw : (c'.box id).width = a.size.width := hh.1
  have hhe : (c'.box id).height = a.size.height := hh.2.1
  rw [hw, hhe, hsize]

/-- A visible item is among the contents of its parent, as they are displayed. -/
theorem exists_contents (h : c.tree.WellFormed) (hs : c.tree.Shows f id)
    (hp : c.tree.parent? id = some p) : ∃ name contents x,
      c.tree.root.display.Place (.folder p name contents) (c.tree.ancestors p) ∧
      x ∈ contents ∧ x.id = id ∧ ∀ q ∈ p :: c.tree.ancestors p, f.isExpanded q = true := by
  obtain ⟨x, rfl, hx⟩ := h.exists_place hs.1
  rcases hs.eq_rootId_or_parent h with he | ⟨q, hq, ha, -⟩
  · rw [he, ← FolderTree.head?_ancestors, h.ancestors_rootId] at hp
    simp at hp
  · obtain rfl := Option.some.inj (hq.symm.trans hp)
    rw [ha] at hx
    obtain ⟨name, contents, hplace, hm⟩ := hx.display.out
    exact ⟨name, contents, x.display, hplace, hm, Item.id_display x, ha ▸ hs.2⟩

theorem layout_tiled (h : c.tree.WellFormed) (hl : c.layout f = .ok c') : c'.Tiled f := by
  have htree := tree_layout hl
  refine ⟨?_, ?_, ?_, ?_⟩
  · obtain ⟨boxes, hb, hbox⟩ := box_of_layout h hl
    obtain ⟨whole, -, rfl⟩ := FolderTree.layout_eq_ok hb
    have hroot := hbox _ (List.mem_cons_self ..)
    exact ⟨congrArg Box.x hroot, congrArg Box.y hroot⟩
  · obtain ⟨a, ha, hw, hh, -⟩ := holds_of_place h hl .here (by simp)
    rw [← c.tree.id_root_display, hw, hh]
    exact Item.size_arrange_le ha
  · intro id p hs hp
    rw [htree] at hs hp
    obtain ⟨name, contents, x, hplace, hx, rfl, hall⟩ := exists_contents h hs hp
    obtain ⟨sizes, packing, hpack, hsize, hboxes⟩ := packing_of_place h hl hplace hall
    have hm : c'.box x.id ∈ packing.boxes sizes := hboxes ▸ List.mem_map_of_mem hx
    have hin := pack_inside hpack hm
    simp only [hsize] at hin
    simp only [Box.Inset]
    omega
  · intro i j p hsi hsj hpi hpj hij
    rw [htree] at hsi hsj hpi hpj
    obtain ⟨name, contents, x, hplace, hx, rfl, hall⟩ := exists_contents h hsi hpi
    obtain ⟨name', contents', y, hplace', hy, rfl, -⟩ := exists_contents h hsj hpj
    obtain ⟨-, -, rfl⟩ := Item.folder.inj (h.eq_of_id_eq hplace hplace' rfl)
    obtain ⟨sizes, packing, hpack, -, hboxes⟩ := packing_of_place h hl hplace hall
    have hpair := pack_apart hpack
    rw [← hboxes, List.pairwise_map] at hpair
    have hsymm : Std.Symm fun x y : Item => (c'.box x.id).Apart (c'.box y.id) :=
      ⟨fun _ _ => Box.Apart.symm⟩
    exact hpair.forall hx hy (fun he => hij (congrArg Item.id he))

theorem Tiled.absolute_rootId (ht : c.Tiled f) (h : c.tree.WellFormed) :
    c.absolute rootId = ⟨0, 0, (c.box rootId).width, (c.box rootId).height⟩ := by
  simp [absolute, offset, h.ancestors_rootId, ht.corner]

theorem absolute_of_parent (ha : c.tree.ancestors id = p :: c.tree.ancestors p) :
    c.absolute id = { c.box id with
      x := (c.box id).x + (c.absolute p).x
      y := (c.box id).y + (c.absolute p).y } := by
  simp [absolute, offset, ha]

namespace Tiled

variable {i j : String}

theorem absolute_inset (ht : c.Tiled f) (hs : c.tree.Shows f id) (hp : c.tree.parent? id = some p)
    (ha : c.tree.ancestors id = p :: c.tree.ancestors p) : (c.absolute id).Inset (c.absolute p) := by
  have hin := ht.inset hs hp
  rw [absolute_of_parent ha]
  simp only [Box.Inset, absolute] at hin ⊢
  omega

theorem within_ancestor (ht : c.Tiled f) (h : c.tree.WellFormed) (hs : c.tree.Shows f id) :
    ∀ q ∈ c.tree.ancestors id, (c.absolute id).Within (c.absolute q) := by
  induction hs using FolderTree.Shows.induction h with
  | root => simp [h.ancestors_rootId]
  | inside id p hs _ hp ha ih =>
    have hin := (ht.absolute_inset hs hp ha).within
    rw [ha]
    rintro q (_ | ⟨_, hq⟩)
    · exact hin
    · exact hin.trans (ih q hq)

/-- The root's box encloses everything drawn. -/
theorem within_root (ht : c.Tiled f) (h : c.tree.WellFormed) (hs : c.tree.Shows f id) :
    (c.absolute id).Within (c.absolute rootId) := by
  induction hs using FolderTree.Shows.induction h with
  | root => exact .refl _
  | inside id p hs _ hp ha ih => exact (ht.absolute_inset hs hp ha).within.trans ih

theorem fits_absolute (ht : c.Tiled f) (h : c.tree.WellFormed) (hs : c.tree.Shows f id) :
    (c.absolute id).x + (c.absolute id).width ≤ coordinateLimit ∧
      (c.absolute id).y + (c.absolute id).height ≤ coordinateLimit := by
  have hin := ht.within_root h hs
  have hfits := ht.fits
  rw [ht.absolute_rootId h] at hin
  simp only [Box.Within] at hin
  omega

theorem frame_eq (ht : c.Tiled f) (h : c.tree.WellFormed) (hs : c.tree.Shows f id) :
    c.frame id = .ok (c.absolute id) := by
  have hfits := ht.fits_absolute h hs
  exact Canvas.frame_eq (by omega) (by omega)

theorem absolute_apart_of_siblings (ht : c.Tiled f) (hsi : c.tree.Shows f i) (hsj : c.tree.Shows f j)
    (hpi : c.tree.parent? i = some p) (hpj : c.tree.parent? j = some p)
    (hai : c.tree.ancestors i = p :: c.tree.ancestors p)
    (haj : c.tree.ancestors j = p :: c.tree.ancestors p) (hij : i ≠ j) :
    (c.absolute i).Apart (c.absolute j) := by
  have hap := ht.apart hsi hsj hpi hpj hij
  rw [absolute_of_parent hai, absolute_of_parent haj]
  simp only [Box.Apart] at hap ⊢
  omega

/-- Items apart in the tree are apart on the canvas. By induction on the first item: either the folder
around it holds the other one as well, further in or not, or that folder is itself apart from it. -/
theorem absolute_apart (ht : c.Tiled f) (h : c.tree.WellFormed) (hsi : c.tree.Shows f i)
    (hsj : c.tree.Shows f j) (hne : i ≠ j) (hij : i ∉ c.tree.ancestors j)
    (hji : j ∉ c.tree.ancestors i) : (c.absolute i).Apart (c.absolute j) := by
  induction hsi using FolderTree.Shows.induction h with
  | root =>
    rcases hsj.eq_rootId_or_rootId_mem h with rfl | hr
    · exact absurd rfl hne
    · exact absurd hr hij
  | inside i p hsi hsp hpi hai ih =>
    rw [hai, List.mem_cons, not_or] at hji
    by_cases hpj : p ∈ c.tree.ancestors j
    · obtain ⟨k, hk, hsk, hpk, hak⟩ := hsj.exists_child_towards h hpj
      have hik : i ≠ k := by
        rintro rfl
        rcases List.mem_cons.mp hk with he | hk
        · exact hne he
        · exact hij hk
      have hap := ht.absolute_apart_of_siblings hsi hsk hpi hpk hai hak hik
      refine hap.of_within (.refl _) ?_
      rcases List.mem_cons.mp hk with rfl | hk
      · exact .refl _
      · exact ht.within_ancestor h hsj k hk
    · have hap := ih (fun he => hji.1 he.symm) hpj hji.2
      exact hap.of_within (ht.absolute_inset hsi hpi hai).within (.refl _)

end Tiled

end Canvas

variable {files : List SourceFile}

/-- After a layout the boxes of the visible items are properly nested: each lies inside the boxes of
all folders around it, clear of the border and the title bar of the nearest one, and items of which
neither is inside the other are a gap apart. Nothing leaves the root's box. -/
theorem layout_nests (hb : FolderTree.build files = .ok c.tree) (hl : c.layout f = .ok c')
    (edgeCount : Nat) (projection : Projection) :
    c'.frame rootId = .ok ⟨0, 0, (c'.stats edgeCount projection).canvasWidth,
      (c'.stats edgeCount projection).canvasHeight⟩ ∧
    (∀ id, c.tree.Shows f id → ∃ b, c'.frame id = .ok b ∧
      b.Within ⟨0, 0, (c'.stats edgeCount projection).canvasWidth,
        (c'.stats edgeCount projection).canvasHeight⟩ ∧
      (∀ q ∈ c.tree.ancestors id, ∃ outer, c'.frame q = .ok outer ∧ b.Within outer) ∧
      (id ≠ rootId → ∃ p outer, c.tree.parent? id = some p ∧ c'.frame p = .ok outer ∧
        b.Inset outer)) ∧
    ∀ i j, c.tree.Shows f i → c.tree.Shows f j → i ≠ j → i ∉ c.tree.ancestors j →
      j ∉ c.tree.ancestors i → ∃ a b, c'.frame i = .ok a ∧ c'.frame j = .ok b ∧ a.Apart b ∧
        a.overlaps b = .ok false := by
  have hwf := (FolderTree.wellFormed_build hb).1
  have ht := Canvas.layout_tiled hwf hl
  rw [← Canvas.tree_layout hl] at hwf ⊢
  have hroot := ht.absolute_rootId hwf
  refine ⟨hroot ▸ ht.frame_eq hwf hwf.shows_rootId, ?_, ?_⟩
  · intro id hs
    refine ⟨c'.absolute id, ht.frame_eq hwf hs, hroot ▸ ht.within_root hwf hs, ?_, ?_⟩
    · intro q hq
      exact ⟨c'.absolute q, ht.frame_eq hwf (hs.of_mem_ancestors hwf hq), ht.within_ancestor hwf hs q hq⟩
    · intro hne
      rcases hs.eq_rootId_or_parent hwf with he | ⟨p, hp, ha, hsp, -⟩
      · exact absurd he hne
      · exact ⟨p, c'.absolute p, hp, ht.frame_eq hwf hsp, ht.absolute_inset hs hp ha⟩
  · intro i j hsi hsj hne hij hji
    have hap := ht.absolute_apart hwf hsi hsj hne hij hji
    obtain ⟨hix, hiy⟩ := ht.fits_absolute hwf hsi
    obtain ⟨hjx, hjy⟩ := ht.fits_absolute hwf hsj
    exact ⟨_, _, ht.frame_eq hwf hsi, ht.frame_eq hwf hsj, hap, hap.overlaps hix hiy hjx hjy⟩

theorem layout_nests_nested : ∃ c', FolderTree.build FolderTree.nestedFiles = .ok FolderTree.nested ∧
    (⟨FolderTree.nested, {}, {}⟩ : Canvas).layout (Folding.empty.set "a/b" false) = .ok c' ∧
    FolderTree.nested.Shows (Folding.empty.set "a/b" false) "a/b" ∧
    FolderTree.nested.Shows (Folding.empty.set "a/b" false) "a/d" ∧
    ∃ a b, c'.frame "a/b" = .ok a ∧ c'.frame "a/d" = .ok b ∧ a.Apart b ∧ a.overlaps b = .ok false := by
  have hl := Canvas.layout_of_ok (c := ⟨FolderTree.nested, {}, {}⟩) FolderTree.wellFormed_nested
    FolderTree.layout_nested
  have hb : FolderTree.nested.Shows (Folding.empty.set "a/b" false) "a/b" :=
    ⟨by decide, by decide +kernel⟩
  have hf : FolderTree.nested.Shows (Folding.empty.set "a/b" false) "a/d" :=
    ⟨by decide, by decide +kernel⟩
  have h := layout_nests FolderTree.build_nestedFiles hl 0 {}
  exact ⟨_, FolderTree.build_nestedFiles, hl, hb, hf,
    h.2.2 "a/b" "a/d" hb hf (by decide) (by decide) (by decide)⟩

end Foldergram
