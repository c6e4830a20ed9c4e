import Foldergram.Proofs.Layout.Packing
import Mathlib.Data.List.Chain

/-!
Packed boxes stand in rows. While a row is being filled, the cursor can be read off its boxes; a new row is
begun, below the tallest of them, only for a box that would have crossed the limit.
-/

namespace Foldergram

namespace Packing

/-- Boxes side by side, and the height at which they stand. -/
structure Row where
  y : Nat
  boxes : List Box

namespace Row

variable {limit extent width : Nat} {r next : Row} {b : Box} {size : Size} {start : Cursor}

/-- The height of the tallest box; a row without boxes has none. -/
def height (r : Row) : Nat :=
  (r.boxes.map (·.height)).foldl max 0

/-- Where a further box would start. -/
def nextX (r : Row) : Nat :=
  match r.boxes.getLast? with
  | none => padding
  | some b => b.x + b.width + gap

def push (r : Row) (b : Box) : Row :=
  ⟨r.y, r.boxes ++ [b]⟩

@[simp] theorem y_push (r : Row) (b : Box) : (r.push b).y = r.y := rfl

@[simp] theorem height_push (r : Row) (b : Box) : (r.push b).height = max r.height b.height := by
  simp [height, push]

@[simp] theorem nextX_push (r : Row) (b : Box) : (r.push b).nextX = b.x + b.width + gap := by
  simp [nextX, push]

@[simp] theorem nextX_nil (y : Nat) : (Row.mk y []).nextX = padding := rfl

@[simp] theorem height_nil (y : Nat) : (Row.mk y []).height = 0 := rfl

theorem nextX_eq (hb : r.boxes.getLast? = some b) : r.nextX = b.x + b.width + gap := by
  rw [nextX, hb]

/-- The first box stands at the padding, and each of the others a gap behind the box before it. All stand at
the height of the row, and none but the first may cross the limit. -/
structure Filled (limit : Nat) (r : Row) : Prop where
  start : ∀ b, r.boxes.head? = some b → b.x = padding
  spaced : r.boxes.IsChain fun a b => b.x = a.x + a.width + gap
  level : ∀ b ∈ r.boxes, b.y = r.y
  fits : ∀ b ∈ r.boxes.tail, b.x + b.width ≤ limit

/-- The next row stands a gap below the tallest box, and its first box would have crossed the limit if it had
been put at the end of this one. -/
structure Below (limit : Nat) (r next : Row) : Prop where
  y : next.y = r.y + r.height + gap
  forced : ∃ last first, r.boxes.getLast? = some last ∧ next.boxes.head? = some first ∧
    limit < last.x + last.width + gap + first.width

namespace Filled

theorem nil (limit y : Nat) : (Row.mk y []).Filled limit :=
  ⟨by simp, .nil, by simp, by simp⟩

theorem padding_le (h : r.Filled limit) (hb : b ∈ r.boxes) : padding ≤ b.x := by
  obtain ⟨y, boxes⟩ := r
  cases boxes with
  | nil => simp at hb
  | cons first boxes =>
    have hfirst : first.x = padding := h.start first rfl
    have hle : (first :: boxes).IsChain fun a b => a.x ≤ b.x :=
      h.spaced.imp fun a b he => by omega
    have htrans : IsTrans Box fun a b => a.x ≤ b.x := ⟨fun _ _ _ => Nat.le_trans⟩
    rcases List.mem_cons.mp hb with rfl | hb
    · exact Nat.le_of_eq hfirst.symm
    · exact hfirst ▸ (List.pairwise_cons.mp hle.pairwise).1 b hb

/-- Only in an empty row the next box stands at the padding. -/
theorem padding_lt_nextX (h : r.Filled limit) (hne : r.boxes ≠ []) : padding < r.nextX := by
  have hx := h.padding_le (List.getLast_mem hne)
  rw [nextX_eq (List.getLast?_eq_some_getLast hne), gap]
  omega

theorem x_le (h : r.Filled limit) (hl : padding ≤ limit) (hb : b ∈ r.boxes) : b.x ≤ limit := by
  obtain ⟨y, boxes⟩ := r
  cases boxes with
  | nil => simp at hb
  | cons first boxes =>
    rcases List.mem_cons.mp hb with rfl | hb
    · exact h.start b rfl ▸ hl
    · exact Nat.le_of_add_right_le (h.fits b hb)

/-- A box is put at the end of a row where it keeps to the limit, or where it is the first. -/
theorem push (h : r.Filled limit) (hfits : r.nextX + size.width ≤ limit ∨ r.boxes = []) :
    (r.push (Box.ofCorner ⟨r.nextX, r.y⟩ size)).Filled limit := by
  obtain ⟨y, boxes⟩ := r
  by_cases hne : boxes = []
  · subst hne
    exact ⟨by simp [Row.push, Box.ofCorner], .singleton _, by simp [Row.push, Box.ofCorner],
      by simp [Row.push]⟩
  · have hfits : (Row.mk y boxes).nextX + size.width ≤ limit := hfits.resolve_right hne
    refine ⟨?_, ?_, ?_, ?_⟩
    · intro b hb
      rw [Row.push, List.head?_append_of_ne_nil _ hne] at hb
      exact h.start b hb
    · refine List.isChain_append.mpr ⟨h.spaced, .singleton _, ?_⟩
      intro a ha b hb
      obtain rfl : Box.ofCorner ⟨(Row.mk y boxes).nextX, y⟩ size = b := by simpa using hb
      exact nextX_eq ha
    · intro b hb
      rcases List.mem_append.mp hb with hb | hb
      · exact h.level b hb
      · rw [List.mem_singleton.mp hb]
        rfl
    · intro b hb
      rw [Row.push, List.tail_append_of_ne_nil hne] at hb
      rcases List.mem_append.mp hb with hb | hb
      · exact h.fits b hb
      · rw [List.mem_singleton.mp hb]
        exact hfits

end Filled

/-- The cursor behind the last box of a row. -/
def cursor (r : Row) (extent : Nat) : Cursor :=
  ⟨r.nextX, r.y, r.height, extent⟩

theorem wrap_cursor (h : r.Filled limit) (hw : (r.cursor extent).wrap limit width = .ok start) :
    (start = r.cursor extent ∧ (r.nextX + width ≤ limit ∨ r.boxes = [])) ∨
      (start = (Row.mk (r.y + r.height + gap) []).cursor extent ∧ r.boxes ≠ [] ∧
        limit < r.nextX + width) := by
  rcases Cursor.wrap_eq_ok hw with ⟨rfl, hfits⟩ | ⟨rfl, hcross, hpad⟩
  · refine Or.inl ⟨rfl, hfits.imp_right fun hpad => ?_⟩
    by_contra hne
    exact absurd (h.padding_lt_nextX hne) (Nat.not_lt.mpr hpad)
  · refine Or.inr ⟨?_, ?_, hcross⟩
    · simp [cursor, Nat.add_assoc]
    · intro he
      simp [cursor, nextX, he] at hpad

theorem advance_cursor {c : Cursor} (ha : (r.cursor extent).advance size = .ok c) :
    c = (r.push (Box.ofCorner ⟨r.nextX, r.y⟩ size)).cursor (max extent (r.nextX + (size.width + gap))) := by
  obtain ⟨rfl, -⟩ := Cursor.advance_eq_ok ha
  simp [cursor, Box.ofCorner, Nat.add_assoc]

end Row

variable {limit extent : Nat} {r last : Row} {rows : List Row} {b : Box} {boxes : List Box}
  {sizes : List Size} {positions : List Position} {c d : Cursor}

/-- Rows that go on with a row already begun, and put further boxes behind its own. -/
structure Continues (limit : Nat) (begun : Row) (boxes : List Box) (rows : List Row) (last : Row) : Prop where
  first : ∃ more later, rows = ⟨begun.y, begun.boxes ++ more⟩ :: later
  boxes : rows.flatMap Row.boxes = begun.boxes ++ boxes
  filled : ∀ r ∈ rows, r.Filled limit
  stacked : rows.IsChain (Row.Below limit)
  last : rows.getLast? = some last

namespace Continues

theorem done (h : r.Filled limit) : Continues limit r [] [r] r where
  first := ⟨[], [], by simp⟩
  boxes := by simp
  filled := by simpa using h
  stacked := .singleton r
  last := rfl

/-- One more box in the row. -/
theorem of_push (h : Continues limit (r.push b) boxes rows last) : Continues limit r (b :: boxes) rows last := by
  obtain ⟨more, later, rfl⟩ := h.first
  refine ⟨⟨b :: more, later, by simp [Row.push]⟩, ?_, h.filled, h.stacked, h.last⟩
  rw [h.boxes, Row.push]
  simp

/-- A row is finished, and a box begins the one below it. -/
theorem of_below {y : Nat} (hr : r.Filled limit) (hb : r.Below limit ⟨y, [b]⟩)
    (h : Continues limit ⟨y, [b]⟩ boxes rows last) : Continues limit r (b :: boxes) (r :: rows) last := by
  obtain ⟨more, later, rfl⟩ := h.first
  refine ⟨⟨[], _, by rw [List.append_nil]⟩, ?_, ?_, ?_, ?_⟩
  · rw [List.flatMap_cons, h.boxes, List.singleton_append]
  · exact List.forall_mem_cons.mpr ⟨hr, h.filled⟩
  · refine List.isChain_cons_cons.mpr ⟨⟨hb.y, ?_⟩, h.stacked⟩
    obtain ⟨before, first, hbefore, hfirst, hcross⟩ := hb.forced
    exact ⟨before, first, hbefore, by simpa using hfirst, hcross⟩
  · rw [List.getLast?_cons_cons, h.last]

end Continues

/-- The whole loop, from the end of a row that is being filled. By induction on the boxes ahead. -/
theorem place_continues (h : r.Filled limit)
    (hp : place limit (r.cursor extent) sizes = .ok (positions, d)) :
    ∃ rows last, Continues limit r (List.zipWith Box.ofCorner positions sizes) rows last ∧
      d.y + d.rowHeight = last.y + last.height := by
  induction sizes generalizing r extent positions with
  | nil =>
    cases hp
    exact ⟨[r], r, .done h, rfl⟩
  | cons size sizes ih =>
    obtain ⟨start, next, rest, hw, ha, hrest, rfl⟩ := place_cons_eq_ok hp
    rcases Row.wrap_cursor h hw with ⟨rfl, hfits⟩ | ⟨rfl, hne, hcross⟩
    · obtain rfl := Row.advance_cursor ha
      obtain ⟨rows, last, hrows, hlast⟩ := ih (h.push hfits) hrest
      exact ⟨rows, last, hrows.of_push, hlast⟩
    · obtain rfl := Row.advance_cursor ha
      have hnew := Row.Filled.nil limit (r.y + r.height + gap)
      obtain ⟨rows, last, hrows, hlast⟩ := ih (hnew.push (Or.inr rfl)) hrest
      refine ⟨r :: rows, last, .of_below h ⟨rfl, ?_⟩ hrows, hlast⟩
      have hbefore := List.getLast?_eq_some_getLast hne
      exact ⟨_, _, hbefore, rfl, Row.nextX_eq hbefore ▸ hcross⟩

/-- The right end of the widest row, from all boxes. -/
theorem extent_place (hp : place limit c sizes = .ok (positions, d)) :
    d.extent = ((List.zipWith Box.ofCorner positions sizes).map fun b => b.x + b.width + gap).foldl max
      c.extent := by
  induction sizes generalizing c positions with
  | nil =>
    cases hp
    rfl
  | cons size sizes ih =>
    obtain ⟨start, next, rest, hw, ha, hrest, rfl⟩ := place_cons_eq_ok hp
    have hstart : start.extent = c.extent := by
      rcases Cursor.wrap_eq_ok hw with ⟨rfl, -⟩ | ⟨rfl, -, -⟩ <;> rfl
    obtain ⟨rfl, -⟩ := Cursor.advance_eq_ok ha
    rw [ih hrest, hstart]
    simp [Box.ofCorner, Nat.add_assoc]

theorem boxes_ne_nil_of_stacked (h : rows.IsChain (Row.Below limit)) (hne : rows.flatMap Row.boxes ≠ []) :
    ∀ r ∈ rows, r.boxes ≠ [] := by
  induction rows with
  | nil => simp
  | cons r rows ih =>
    cases rows with
    | nil => simpa using hne
    | cons next rows =>
      obtain ⟨hbelow, hrest⟩ := List.isChain_cons_cons.mp h
      obtain ⟨before, first, hbefore, hfirst, -⟩ := hbelow.forced
      have hr : r.boxes ≠ [] := List.ne_nil_of_mem (List.mem_of_getLast? hbefore)
      have hnext : next.boxes ≠ [] := List.ne_nil_of_mem (List.mem_of_head? hfirst)
      exact List.forall_mem_cons.mpr ⟨hr, ih hrest (by simp [hnext])⟩

theorem padding_le_rowLimit (count : Nat) : padding ≤ rowLimit count :=
  Nat.le_trans (by decide) (Nat.le_max_left leastRowWidth _)

end Packing

open Packing

variable {sizes : List Size} {p : Packing}

/-- A packing in rows from top to bottom. Where there is nothing to pack, there is one row without boxes. -/
structure Packing.InRows (p : Packing) (sizes : List Size) (rows : List Row) : Prop where
  /-- Every box has its position. -/
  length : p.positions.length = sizes.length
  /-- The rows hold the boxes in their order. -/
  boxes : rows.flatMap Row.boxes = p.boxes sizes
  inhabited : sizes ≠ [] → ∀ r ∈ rows, r.boxes ≠ []
  filled : ∀ r ∈ rows, r.Filled (rowLimit sizes.length)
  top : rows.head?.map Row.y = some (padding + headerHeight)
  stacked : rows.IsChain (Row.Below (rowLimit sizes.length))
  /-- No box starts behind the limit, though the first one of a row may cross it. -/
  bounded : ∀ b ∈ p.boxes sizes, b.x ≤ rowLimit sizes.length
  width : p.size.width = ((p.boxes sizes).map fun b => b.x + b.width + gap).foldl max padding
  height : ∃ last, rows.getLast? = some last ∧ p.size.height = last.y + last.height + padding

/-- Packing fills rows: a box goes to the end of the row unless it would cross the limit there, and a new row
is begun for no other reason. -/
theorem pack_in_rows (h : pack sizes = .ok p) : ∃ rows, p.InRows sizes rows := by
  obtain ⟨d, hp, hsize, -⟩ := pack_eq_ok h
  have hempty : place (rowLimit sizes.length) ((Row.mk (padding + headerHeight) []).cursor padding) sizes =
      .ok (p.positions, d) := hp
  obtain ⟨rows, last, hrows, hlast⟩ := place_continues (.nil ..) hempty
  have hboxes : rows.flatMap Row.boxes = p.boxes sizes := hrows.boxes
  refine ⟨rows, length_positions h, hboxes, ?_, hrows.filled, ?_, hrows.stacked, ?_, ?_, last, hrows.last, ?_⟩
  · intro hne
    refine boxes_ne_nil_of_stacked hrows.stacked ?_
    rw [hboxes, ← List.length_pos_iff, boxes, List.length_zipWith, length_positions h, Nat.min_self]
    exact List.length_pos_iff.mpr hne
  · obtain ⟨more, later, rfl⟩ := hrows.first
    rfl
  · intro b hb
    obtain ⟨r, hr, hb⟩ := List.mem_flatMap.mp (hboxes ▸ hb)
    exact (hrows.filled r hr).x_le (padding_le_rowLimit _) hb
  · rw [hsize]
    exact extent_place hp
  · rw [hsize, Cursor.bottom, hlast]

/-- The second box just keeps to the limit of 800, and the third one crosses it in a row of its own. -/
theorem pack_in_rows_three :
    let sizes : List Size := [⟨700, 70⟩, ⟨40, 10⟩, ⟨900, 60⟩, ⟨0, 5⟩]
    let p : Packing := ⟨[⟨40, 100⟩, ⟨760, 100⟩, ⟨40, 190⟩, ⟨40, 270⟩], ⟨960, 315⟩⟩
    pack sizes = .ok p ∧ ∃ rows, p.InRows sizes rows := by
  intro sizes p
  have h : pack sizes = .ok p := by decide +kernel
  exact ⟨h, pack_in_rows h⟩

end Foldergram
