import Foldergram.Layout.Packing
import Foldergram.Proofs.Checked
import Mathlib.Data.List.Basic

/-!
What packing achieves. The cursor only moves on, so each box is a gap away from all boxes placed after
it, and the folder's size covers all of them.
-/

namespace Foldergram

/-- Side by side or one above the other, with a gap between. -/
def Box.Apart (a b : Box) : Prop :=
  a.x + a.width + gap ≤ b.x ∨ b.x + b.width + gap ≤ a.x ∨
    a.y + a.height + gap ≤ b.y ∨ b.y + b.height + gap ≤ a.y

theorem Box.Apart.symm {a b : Box} (h : a.Apart b) : b.Apart a := by
  unfold Box.Apart at *
  omega

namespace Packing

variable {limit width : Nat} {c start next last : Cursor} {size : Size} {sizes : List Size}
  {positions : List Position}

theorem Cursor.wrap_eq_ok (h : c.wrap limit width = .ok start) :
    (start = c ∧ (c.x + width ≤ limit ∨ c.x ≤ padding)) ∨
      (start = { c with x := padding, y := c.y + (c.rowHeight + gap), rowHeight := 0 } ∧
        limit < c.x + width ∧ padding < c.x) := by
  obtain ⟨right, hr, h⟩ := bind_eq_ok.mp h
  obtain ⟨rfl, -⟩ := plus_eq_ok.mp hr
  split at h
  · rename_i hcross
    obtain ⟨step, hs, h⟩ := bind_eq_ok.mp h
    obtain ⟨y, hy, h⟩ := bind_eq_ok.mp h
    obtain ⟨rfl, -⟩ := plus_eq_ok.mp hs
    obtain ⟨rfl, -⟩ := plus_eq_ok.mp hy
    exact Or.inr ⟨(pure_eq_ok.mp h).symm, hcross⟩
  · rename_i hfits
    refine Or.inl ⟨(pure_eq_ok.mp h).symm, ?_⟩
    omega

theorem Cursor.advance_eq_ok (h : c.advance size = .ok next) :
    next = { c with
      x := c.x + (size.width + gap)
      rowHeight := max c.rowHeight size.height
      extent := max c.extent (c.x + (size.width + gap)) } ∧
      c.x + (size.width + gap) ≤ coordinateLimit := by
  obtain ⟨step, hs, h⟩ := bind_eq_ok.mp h
  obtain ⟨x, hx, h⟩ := bind_eq_ok.mp h
  obtain ⟨rfl, -⟩ := plus_eq_ok.mp hs
  obtain ⟨rfl, hle⟩ := plus_eq_ok.mp hx
  exact ⟨(pure_eq_ok.mp h).symm, hle⟩

theorem place_cons_eq_ok (h : place limit c (size :: sizes) = .ok (positions, last)) :
    ∃ start next rest, c.wrap limit size.width = .ok start ∧ start.advance size = .ok next ∧
      place limit next sizes = .ok (rest, last) ∧ positions = ⟨start.x, start.y⟩ :: rest := by
  obtain ⟨start, hs, h⟩ := bind_eq_ok.mp h
  obtain ⟨next, hn, h⟩ := bind_eq_ok.mp h
  obtain ⟨⟨rest, last'⟩, hr, h⟩ := bind_eq_ok.mp h
  obtain ⟨rfl, rfl⟩ := Prod.mk.inj (pure_eq_ok.mp h)
  exact ⟨start, next, rest, hs, hn, hr, rfl⟩

/-- The lower edge of the row that the cursor stands in. -/
def Cursor.bottom (c : Cursor) : Nat :=
  c.y + c.rowHeight

/-- A box to the right of the cursor in its row, or in a row further down. -/
def Cursor.Ahead (c : Cursor) (b : Box) : Prop :=
  (b.y = c.y ∧ c.x ≤ b.x) ∨ (c.bottom + gap ≤ b.y ∧ padding ≤ b.x)

theorem Cursor.Ahead.of_wrap {b : Box} (hw : c.wrap limit width = .ok start)
    (h : start.Ahead b) : c.Ahead b := by
  rcases Cursor.wrap_eq_ok hw with ⟨rfl, -⟩ | ⟨rfl, -, -⟩
  · exact h
  · simp only [Cursor.Ahead, Cursor.bottom] at h ⊢
    omega

theorem Cursor.Ahead.of_advance {b : Box} (ha : c.advance size = .ok next)
    (h : next.Ahead b) : c.Ahead b ∧ (Box.ofCorner ⟨c.x, c.y⟩ size).Apart b := by
  obtain ⟨rfl, -⟩ := Cursor.advance_eq_ok ha
  simp only [Cursor.Ahead, Cursor.bottom, Box.Apart, Box.ofCorner] at h ⊢
  omega

/-- What holds of the boxes placed between two cursors. -/
structure Placed (c : Cursor) (boxes : List Box) (last : Cursor) : Prop where
  ahead : ∀ b ∈ boxes, c.Ahead b
  inside : ∀ b ∈ boxes, b.x + b.width + gap ≤ last.extent ∧ b.y + b.height ≤ last.bottom
  apart : boxes.Pairwise Box.Apart
  extent_le : c.extent ≤ last.extent
  bottom_le : c.bottom ≤ last.bottom
  extent_le_limit : c.extent ≤ coordinateLimit → last.extent ≤ coordinateLimit

/-- One step of the loop: a box in front of boxes that are already known to be placed well. -/
theorem Placed.cons {boxes : List Box} (hw : c.wrap limit size.width = .ok start)
    (ha : start.advance size = .ok next) (h : Placed next boxes last) :
    Placed c (Box.ofCorner ⟨start.x, start.y⟩ size :: boxes) last := by
  have hstart : c.extent = start.extent ∧ c.bottom ≤ start.bottom := by
    rcases Cursor.wrap_eq_ok hw with ⟨rfl, -⟩ | ⟨rfl, -, -⟩
    · exact ⟨rfl, Nat.le_refl _⟩
    · exact ⟨rfl, by simp only [Cursor.bottom]; omega⟩
  have hnext : start.extent ≤ next.extent ∧ start.bottom ≤ next.bottom ∧
      start.x + size.width + gap ≤ next.extent ∧ start.y + size.height ≤ next.bottom ∧
      (start.extent ≤ coordinateLimit → next.extent ≤ coordinateLimit) := by
    obtain ⟨rfl, hle⟩ := Cursor.advance_eq_ok ha
    simp only [Cursor.bottom]
    omega
  have hext := h.extent_le
  have hbot := h.bottom_le
  refine ⟨?_, ?_, ?_, by omega, by omega, fun hc => h.extent_le_limit (by omega)⟩
  · rintro b (_ | ⟨_, hb⟩)
    · exact .of_wrap hw (Or.inl ⟨rfl, Nat.le_refl _⟩)
    · exact .of_wrap hw (Cursor.Ahead.of_advance ha (h.ahead b hb)).1
  · rintro b (_ | ⟨_, hb⟩)
    · simp only [Box.ofCorner]
      omega
    · exact h.inside b hb
  · rw [List.pairwise_cons]
    exact ⟨fun b hb => (Cursor.Ahead.of_advance ha (h.ahead b hb)).2, h.apart⟩

theorem length_place (h : place limit c sizes = .ok (positions, last)) :
    positions.length = sizes.length := by
  induction sizes generalizing c positions with
  | nil =>
    cases h
    rfl
  | cons size sizes ih =>
    obtain ⟨start, next, rest, -, -, hr, rfl⟩ := place_cons_eq_ok h
    simp [ih hr]

/-- The whole loop, for boxes of any sizes. -/
theorem place_placed (h : place limit c sizes = .ok (positions, last)) :
    Placed c (List.zipWith Box.ofCorner positions sizes) last := by
  induction sizes generalizing c positions with
  | nil =>
    cases h
    exact ⟨by simp, by simp, by simp, Nat.le_refl _, Nat.le_refl _, id⟩
  | cons size sizes ih =>
    obtain ⟨start, next, rest, hw, ha, hr, rfl⟩ := place_cons_eq_ok h
    exact Placed.cons hw ha (ih hr)

end Packing

variable {sizes : List Size} {p : Packing}

/-- The boxes of a packing, in the folder around them. -/
def Packing.boxes (p : Packing) (sizes : List Size) : List Box :=
  List.zipWith Box.ofCorner p.positions sizes

theorem pack_eq_ok (h : pack sizes = .ok p) : ∃ last,
    Packing.place (Packing.rowLimit sizes.length) {} sizes = .ok (p.positions, last) ∧
      p.size = ⟨last.extent, last.bottom + padding⟩ ∧ last.bottom + padding ≤ coordinateLimit := by
  obtain ⟨⟨positions, last⟩, hp, h⟩ := bind_eq_ok.mp h
  obtain ⟨bottom, hb, h⟩ := bind_eq_ok.mp h
  obtain ⟨height, hh, h⟩ := bind_eq_ok.mp h
  obtain ⟨rfl, -⟩ := plus_eq_ok.mp hb
  obtain ⟨rfl, hle⟩ := plus_eq_ok.mp hh
  cases h
  exact ⟨last, hp, rfl, hle⟩

theorem length_positions (h : pack sizes = .ok p) : p.positions.length = sizes.length := by
  obtain ⟨last, hp, -⟩ := pack_eq_ok h
  exact Packing.length_place hp

theorem pack_apart (h : pack sizes = .ok p) : (p.boxes sizes).Pairwise Box.Apart := by
  obtain ⟨last, hp, -⟩ := pack_eq_ok h
  exact (Packing.place_placed hp).apart

/-- Every packed box keeps its distance to the border of the folder. -/
theorem pack_inside (h : pack sizes = .ok p) {b : Box} (hb : b ∈ p.boxes sizes) :
    padding ≤ b.x ∧ padding + headerHeight ≤ b.y ∧ b.x + b.width + gap ≤ p.size.width ∧
      b.y + b.height + padding ≤ p.size.height := by
  obtain ⟨last, hp, hsize, -⟩ := pack_eq_ok h
  have hplaced := Packing.place_placed hp
  have ha := hplaced.ahead b hb
  have hin := hplaced.inside b hb
  simp only [Packing.Cursor.Ahead, Packing.Cursor.bottom] at ha
  rw [hsize]
  simp only
  omega

theorem size_pack_le (h : pack sizes = .ok p) :
    p.size.width ≤ coordinateLimit ∧ p.size.height ≤ coordinateLimit := by
  obtain ⟨last, hp, hsize, hle⟩ := pack_eq_ok h
  rw [hsize]
  exact ⟨(Packing.place_placed hp).extent_le_limit (by decide), hle⟩

end Foldergram
