import Foldergram.Proofs.Layout.Arrangement

/-!
Layout in place. While a folder's contents are visited one after another, no visit reads or writes the box of
an item outside its own, so the sizes that the folder reads back are those just written, and it makes no
difference that corners are written later. A pass leaves the boxes of the arrangement, over what was on the
canvas before, and nothing else changes.
-/

namespace Foldergram

variable {f : Folding} {id other : String} {boxes : Boxes}

attribute [ext] Canvas

namespace Canvas

variable {c c' : Canvas} {b d : Box} {s : Size} {p : Position} {x : Item} {items : List Item}
  {part : String × Arrangement} {parts : List (String × Arrangement)} {positions : List Position}

/-! ### Single boxes -/

theorem box_setBox (c : Canvas) (id : String) (b : Box) (other : String) :
    (c.setBox id b).box other = if other = id then b else c.box other := by
  rw [setBox, box, Std.ExtTreeMap.getD_insert]
  by_cases h : other = id
  · simp [h]
  · have hne : ¬ compare id other = .eq := fun he => h (Std.LawfulEqCmp.eq_of_compare he).symm
    rw [if_neg hne, if_neg h, box]

theorem box_setBox_self (c : Canvas) (id : String) (b : Box) : (c.setBox id b).box id = b := by
  rw [box_setBox, if_pos rfl]

theorem box_setBox_of_ne (h : other ≠ id) : (c.setBox id b).box other = c.box other := by
  rw [box_setBox, if_neg h]

theorem setBox_setBox (c : Canvas) (id : String) (b d : Box) :
    (c.setBox id b).setBox id d = c.setBox id d := by
  have hboxes : (c.boxes.insert id b).insert id d = c.boxes.insert id d := by
    apply Std.ExtTreeMap.ext_getElem?
    intro k
    simp only [Std.ExtTreeMap.getElem?_insert]
    split <;> rfl
  exact Canvas.ext rfl hboxes rfl

theorem setBox_comm (h : id ≠ other) :
    (c.setBox id b).setBox other d = (c.setBox other d).setBox id b := by
  have hboxes : (c.boxes.insert id b).insert other d = (c.boxes.insert other d).insert id b := by
    apply Std.ExtTreeMap.ext_getElem?
    intro k
    simp only [Std.ExtTreeMap.getElem?_insert]
    by_cases hk : compare other k = .eq
    · have hne : ¬ compare id k = .eq := fun he =>
        h ((Std.LawfulEqCmp.eq_of_compare he).trans (Std.LawfulEqCmp.eq_of_compare hk).symm)
      rw [if_pos hk, if_neg hne, if_pos hk]
    · rw [if_neg hk, if_neg hk]
  exact Canvas.ext rfl hboxes rfl

/-- A size and then a corner make a whole box, whatever was there before. -/
theorem moveTo_resize (c : Canvas) (id : String) (s : Size) (p : Position) :
    (c.resize id s).moveTo id p = c.setBox id (Box.ofCorner p s) := by
  rw [moveTo, resize, box_setBox_self, setBox_setBox]
  rfl

theorem resize_moveTo (c : Canvas) (id : String) (p : Position) (s : Size) :
    (c.moveTo id p).resize id s = c.setBox id (Box.ofCorner p s) := by
  rw [moveTo, resize, box_setBox_self, setBox_setBox]
  rfl

/-! ### Boxes of a whole arrangement -/

/-- Writes whole boxes over those on the canvas. -/
def write (c : Canvas) (boxes : Boxes) : Canvas :=
  { c with boxes := c.boxes.insertMany boxes }

@[simp] theorem write_nil (c : Canvas) : c.write [] = c := by
  simp [write]

theorem write_cons (c : Canvas) (id : String) (b : Box) (boxes : Boxes) :
    c.write ((id, b) :: boxes) = (c.setBox id b).write boxes := by
  simp [write, setBox, Std.ExtTreeMap.insertMany_cons]

theorem write_append (c : Canvas) (boxes boxes' : Boxes) :
    c.write (boxes ++ boxes') = (c.write boxes).write boxes' := by
  induction boxes generalizing c with
  | nil => simp
  | cons entry boxes ih => rw [List.cons_append, write_cons, write_cons, ih]

theorem box_write_of_not_mem (h : id ∉ boxes.map Prod.fst) : (c.write boxes).box id = c.box id := by
  induction boxes generalizing c with
  | nil => rw [write_nil]
  | cons entry boxes ih =>
    rw [List.map_cons, List.mem_cons, not_or] at h
    rw [write_cons, ih h.2, box_setBox_of_ne h.1]

theorem write_setBox (h : id ∉ boxes.map Prod.fst) :
    (c.setBox id b).write boxes = (c.write boxes).setBox id b := by
  induction boxes generalizing c with
  | nil => rw [write_nil, write_nil]
  | cons entry boxes ih =>
    rw [List.map_cons, List.mem_cons, not_or] at h
    rw [write_cons, write_cons, setBox_comm h.1, ih h.2]

/-- What the visit of an item leaves: the boxes inside it and its size, but the corner that it had. -/
def settle (c : Canvas) (part : String × Arrangement) : Canvas :=
  (c.write part.2.inside).resize part.1 part.2.size

theorem box_settle_of_not_mem (h : id ∉ part.1 :: part.2.inside.map Prod.fst) :
    (c.settle part).box id = c.box id := by
  rw [List.mem_cons, not_or] at h
  rw [settle, resize, box_setBox_of_ne h.1, box_write_of_not_mem h.2]

/-- A corner may be written before or after the visit of another item. -/
theorem moveTo_settle (h : id ∉ part.1 :: part.2.inside.map Prod.fst) :
    (c.settle part).moveTo id p = (c.moveTo id p).settle part := by
  have hbox := box_settle_of_not_mem (c := c) h
  rw [List.mem_cons, not_or] at h
  rw [moveTo, hbox, settle, settle, moveTo, write_setBox h.2, resize, resize,
    box_setBox_of_ne (Ne.symm h.1), setBox_comm (Ne.symm h.1)]

/-- An item that stands in its corner has its whole box after its visit. -/
theorem settle_moveTo {a : Arrangement} (h : id ∉ a.inside.map Prod.fst) :
    (c.moveTo id p).settle (id, a) = c.write ((id, Box.ofCorner p a.size) :: a.inside) := by
  have hmoved : (c.moveTo id p).write a.inside = (c.write a.inside).moveTo id p := by
    rw [moveTo, moveTo, write_setBox h, box_write_of_not_mem h]
  rw [settle, hmoved, resize_moveTo, write_cons, write_setBox h]

theorem box_foldl_settle (h : id ∉ partIds parts) : (parts.foldl settle c).box id = c.box id := by
  induction parts generalizing c with
  | nil => rfl
  | cons part parts ih =>
    rw [partIds_cons, List.mem_append, not_or] at h
    rw [List.foldl_cons, ih h.2, box_settle_of_not_mem h.1]

theorem moveTo_foldl_settle (h : id ∉ partIds parts) :
    (parts.foldl settle c).moveTo id p = parts.foldl settle (c.moveTo id p) := by
  induction parts generalizing c with
  | nil => rfl
  | cons part parts ih =>
    rw [partIds_cons, List.mem_append, not_or] at h
    rw [List.foldl_cons, List.foldl_cons, ih h.2, moveTo_settle h.1]

/-- Later visits leave the sizes that earlier ones have written. -/
theorem size_foldl_settle (hd : (partIds parts).Nodup) :
    parts.map (fun part => (parts.foldl settle c).size part.1) = parts.map (·.2.size) := by
  induction parts generalizing c with
  | nil => rfl
  | cons part parts ih =>
    rw [partIds_cons, List.nodup_append] at hd
    obtain ⟨-, hrest, hapart⟩ := hd
    have hlater : part.1 ∉ partIds parts := fun hm => hapart _ (List.mem_cons_self ..) _ hm rfl
    have hown : (parts.foldl settle (c.settle part)).size part.1 = part.2.size := by
      rw [size, box_foldl_settle hlater, settle, resize, box_setBox_self]
    rw [List.map_cons, List.map_cons, List.foldl_cons, hown, ih hrest]

/-- Visits one after another and then all corners come to the boxes of the arrangement. -/
theorem moveAll_foldl_settle (hd : (partIds parts).Nodup) (hids : items.map Item.id = parts.map Prod.fst)
    (hl : positions.length = parts.length) :
    (parts.foldl settle c).moveAll items positions = c.write (placeParts parts positions) := by
  induction parts generalizing c items positions with
  | nil =>
    rw [List.map_eq_nil_iff.mp hids, placeParts, write_nil]
    · rfl
    · simp
  | cons part parts ih =>
    obtain ⟨x, items, rfl⟩ : ∃ x rest, items = x :: rest := by
      cases items with
      | nil => simp at hids
      | cons x rest => exact ⟨x, rest, rfl⟩
    obtain ⟨position, positions, rfl⟩ : ∃ p rest, positions = p :: rest := by
      cases positions with
      | nil => simp at hl
      | cons p rest => exact ⟨p, rest, rfl⟩
    rw [List.map_cons, List.map_cons, List.cons.injEq] at hids
    rw [partIds_cons, List.nodup_append, List.nodup_cons] at hd
    obtain ⟨⟨hinside, -⟩, hrest, hapart⟩ := hd
    have hlater : part.1 ∉ partIds parts := fun hm => hapart _ (List.mem_cons_self ..) _ hm rfl
    have hfirst : (c.settle part).moveTo part.1 position =
        (c.setBox part.1 (Box.ofCorner position part.2.size)).write part.2.inside := by
      rw [settle, moveTo_resize, write_setBox hinside]
    rw [List.foldl_cons, moveAll, hids.1, moveTo_foldl_settle hlater, hfirst,
      ih hrest hids.2 (by simpa using hl), placeParts, write_cons, write_append]

/-! ### The pass -/

theorem visitAll_eq
    (h : ∀ x ∈ items, ∀ c : Canvas, c.visit f x = (x.arrange f).map fun a => c.settle (x.id, a))
    (c : Canvas) : c.visitAll f items = (Item.arrangeAll f items).map (List.foldl settle c) := by
  induction items generalizing c with
  | nil => rfl
  | cons x items ih =>
    have hrest := ih fun y hy => h y (List.mem_cons_of_mem _ hy)
    rw [visitAll, h x (List.mem_cons_self ..), Item.arrangeAll]
    cases x.arrange f with
    | error overflow => rfl
    | ok a =>
      change (c.settle (x.id, a)).visitAll f items = _
      rw [hrest]
      cases Item.arrangeAll f items <;> rfl

/-- The visit of an item leaves its arrangement on the canvas. -/
theorem visit_eq {above : Option String} (hd : ((x.visible f above).map (·.1.id)).Nodup) (c : Canvas) :
    c.visit f x = (x.arrange f).map fun a => c.settle (x.id, a) := by
  induction x generalizing above c with
  | file name source =>
    simp [visit, Item.arrange, Except.map, settle]
  | folder id name contents ih =>
    by_cases hc : f.isCollapsed id = true
    · rw [visit, Item.arrange, if_pos hc, if_pos hc]
      simp [Except.map, settle]
    · have ho : f.isExpanded id = true := by simpa [Folding.isExpanded] using hc
      rw [Item.visible_folder, if_pos ho, List.map_cons, List.nodup_cons, List.map_flatMap] at hd
      have hall : c.visitAll f contents = (Item.arrangeAll f contents).map (List.foldl settle c) :=
        visitAll_eq (fun x hx => ih x hx ((List.nodup_flatMap.mp hd.2).1 x hx)) c
      rw [visit, Item.arrange, if_neg hc, if_neg hc, hall]
      cases hparts : Item.arrangeAll f contents with
      | error overflow => rfl
      | ok parts =>
        have harranged := Item.arrangeAll_eq_ok hparts
        have hids := Item.map_id_of_arranges harranged
        have hnodup : (partIds parts).Nodup := by
          rw [Item.partIds_of_arranges harranged (some id)]
          exact hd.2
        have hsizes : contents.map (fun x => (parts.foldl settle c).size x.id) = parts.map (·.2.size) := by
          rw [← size_foldl_settle (c := c) hnodup]
          simpa [Function.comp_def] using congrArg (List.map (parts.foldl settle c).size) hids
        change (pack _ >>= _) = Except.map _ (pack _ >>= _)
        rw [hsizes]
        cases hpack : pack (parts.map (·.2.size)) with
        | error overflow => rfl
        | ok packing =>
          have hl : packing.positions.length = parts.length := by simpa using length_positions hpack
          have hmoved := moveAll_foldl_settle (c := c) hnodup hids hl
          change Except.ok ((Canvas.moveAll _ _ _).resize id packing.size) = _
          rw [hmoved]
          rfl

/-- On a tree whose items have different ids, a layout comes to writing its boxes over those on the canvas. -/
theorem layout_eq (h : c.tree.WellFormed) (f : Folding) : c.layout f = (c.tree.layout f).map c.write := by
  have hd := h.visibleIds_nodup f
  have hid : c.tree.root.display.id = rootId := Item.id_display ..
  rw [layout, visit_eq hd, FolderTree.layout]
  cases ha : c.tree.root.display.arrange f with
  | error overflow => rfl
  | ok a =>
    have hkeys := Item.keys_arrange ha none
    rw [FolderTree.visibleIds, FolderTree.visible, ← hkeys, List.nodup_cons, hid] at hd
    rw [hid]
    exact congrArg Except.ok (settle_moveTo hd.1)

theorem layout_of_ok (hwf : c.tree.WellFormed) (h : c.tree.layout f = .ok boxes) :
    c.layout f = .ok (c.write boxes) := by
  rw [layout_eq hwf, h]
  rfl

theorem layout_eq_ok (hwf : c.tree.WellFormed) (h : c.layout f = .ok c') :
    ∃ boxes, c.tree.layout f = .ok boxes ∧ c' = c.write boxes := by
  rw [layout_eq hwf, map_eq_ok] at h
  obtain ⟨boxes, hb, rfl⟩ := h
  exact ⟨boxes, hb, rfl⟩

theorem visitAll_preserves {P : Canvas → Prop}
    (hvisit : ∀ x ∈ items, ∀ c c' : Canvas, P c → c.visit f x = .ok c' → P c') (h : P c)
    (hv : c.visitAll f items = .ok c') : P c' := by
  induction items generalizing c with
  | nil =>
    cases hv
    exact h
  | cons x items ih =>
    obtain ⟨visited, hx, hv⟩ := bind_eq_ok.mp hv
    exact ih (fun y hy => hvisit y (List.mem_cons_of_mem _ hy)) (hvisit x (List.mem_cons_self ..) _ _ h hx) hv

section

variable {P : Canvas → Prop} (hset : ∀ (c : Canvas) id b, P c → P (c.setBox id b))
include hset

theorem moveAll_preserves (items : List Item) (positions : List Position) (h : P c) :
    P (c.moveAll items positions) := by
  induction items generalizing c positions with
  | nil => exact h
  | cons x items ih =>
    cases positions with
    | nil => exact h
    | cons p positions => exact ih positions (hset _ _ _ h)

/-- A pass does nothing but write boxes: what these leave as it is stays through every visit. -/
theorem visit_preserves (h : P c) (hv : c.visit f x = .ok c') : P c' := by
  induction x generalizing c c' with
  | file name source =>
    cases hv
    exact hset _ _ _ h
  | folder id name contents ih =>
    by_cases hc : f.isCollapsed id = true
    · rw [visit, if_pos hc] at hv
      cases hv
      exact hset _ _ _ h
    · rw [visit, if_neg hc] at hv
      obtain ⟨visited, hall, hv⟩ := bind_eq_ok.mp hv
      obtain ⟨packing, -, hv⟩ := bind_eq_ok.mp hv
      cases hv
      exact hset _ _ _ (moveAll_preserves hset _ _
        (visitAll_preserves (fun x hx c c' => ih x hx) h hall))

theorem layout_preserves (h : P c) (hl : c.layout f = .ok c') : P c' :=
  visit_preserves hset (hset _ _ _ h) hl

end

theorem tree_layout (h : c.layout f = .ok c') : c'.tree = c.tree :=
  layout_preserves (P := (·.tree = c.tree)) (fun _ _ _ h => h) rfl h

theorem colors_layout (h : c.layout f = .ok c') : c'.colors = c.colors :=
  layout_preserves (P := (·.colors = c.colors)) (fun _ _ _ h => h) rfl h

theorem box_of_mem {b : Box} (hd : (boxes.map Prod.fst).Nodup) (hm : (id, b) ∈ boxes) :
    (c.write boxes).box id = b := by
  apply Std.ExtTreeMap.getD_insertMany_list_of_mem Std.ReflCmp.compare_self _ hm
  rw [List.Nodup, List.pairwise_map] at hd
  exact hd.imp (fun hne he => hne (Std.LawfulEqCmp.eq_of_compare he))

/-- After a layout the canvas has exactly the boxes that the layout has made. -/
theorem box_of_layout (hwf : c.tree.WellFormed) (h : c.layout f = .ok c') :
    ∃ boxes, c.tree.layout f = .ok boxes ∧ ∀ entry ∈ boxes, c'.box entry.1 = entry.2 := by
  obtain ⟨boxes, hb, rfl⟩ := layout_eq_ok hwf h
  have hd : (boxes.map Prod.fst).Nodup := by
    rw [FolderTree.keys_layout hb]
    exact hwf.visibleIds_nodup f
  exact ⟨boxes, hb, fun entry he => box_of_mem hd he⟩

/-- The canvas has the boxes of an arrangement. -/
def Holds (c : Canvas) (x : Item) (a : Arrangement) : Prop :=
  (c.box x.id).width = a.size.width ∧ (c.box x.id).height = a.size.height ∧
    ∀ entry ∈ a.inside, c.box entry.1 = entry.2

end Canvas

namespace Item

variable {x : Item} {items contents : List Item} {a : Arrangement} {parts : List (String × Arrangement)}
  {positions : List Position} {c : Canvas}

theorem holds_of_placeParts (h : List.Forall₂ (Arranges f) items parts)
    (hl : positions.length = parts.length)
    (hb : ∀ entry ∈ placeParts parts positions, c.box entry.1 = entry.2) :
    items.map (fun x => c.box x.id) = List.zipWith Box.ofCorner positions (parts.map (·.2.size)) ∧
      ∀ x ∈ items, ∃ a, x.arrange f = .ok a ∧ c.Holds x a := by
  induction h generalizing positions with
  | nil => simp
  | @cons x part items parts hx _ ih =>
    cases positions with
    | nil => simp at hl
    | cons position positions =>
      simp only [placeParts, List.mem_cons, List.mem_append] at hb
      have hbox : c.box x.id = Box.ofCorner position part.2.size := by
        rw [← hx.1]
        exact hb _ (Or.inl rfl)
      have hin : c.Holds x part.2 := by
        refine ⟨by rw [hbox]; rfl, by rw [hbox]; rfl, ?_⟩
        exact fun entry he => hb entry (Or.inr (Or.inl he))
      obtain ⟨hboxes, hrest⟩ := ih (by simpa using hl)
        (fun entry he => hb entry (Or.inr (Or.inr he)))
      refine ⟨by simp [hbox, hboxes], ?_⟩
      rintro y (_ | ⟨_, hy⟩)
      · exact ⟨part.2, hx.2, hin⟩
      · exact hrest y hy

/-- The boxes in an open folder are those of one packing. -/
theorem holds_contents (ho : f.isExpanded id = true) {name : String}
    (ha : (folder id name contents).arrange f = .ok a) (h : c.Holds (.folder id name contents) a) :
    (∃ sizes packing, pack sizes = .ok packing ∧ a.size = packing.size ∧
      contents.map (fun x => c.box x.id) = packing.boxes sizes) ∧
      ∀ x ∈ contents, ∃ a, x.arrange f = .ok a ∧ c.Holds x a := by
  obtain ⟨parts, packing, hparts, hpack, rfl⟩ := arrange_expanded ho ha
  have hl : packing.positions.length = parts.length := by simpa using length_positions hpack
  obtain ⟨hboxes, hin⟩ := holds_of_placeParts hparts hl h.2.2
  exact ⟨⟨_, packing, hpack, rfl, hboxes⟩, hin⟩

end Item

end Foldergram
