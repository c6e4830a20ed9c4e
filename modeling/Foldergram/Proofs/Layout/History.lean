import Foldergram.Proofs.Projection.Coarsening
import Foldergram.Proofs.Projection.Nodes
import Mathlib.Data.List.Induction

/-!
Layouts one after another on one canvas. A layout writes the boxes of what is visible and reads back only what
it has written itself, so an item has the box of the last layout that saw it.
-/

namespace Foldergram

variable {t : FolderTree} {f : Folding} {id : String} {boxes : Boxes} {c c' : Canvas} {states : List Folding}
  {colors : Std.ExtTreeMap String String} {files : List SourceFile}

/-- Lays the tree out under one folding after another. -/
def Canvas.layouts (c : Canvas) (states : List Folding) : Checked Canvas :=
  states.foldlM Canvas.layout c

/-- The last of the foldings under which an item is visible. -/
def FolderTree.lastShown? (t : FolderTree) (states : List Folding) (id : String) : Option Folding :=
  (states.filter fun f => id ∈ t.visibleIds f).getLast?

theorem FolderTree.lastShown?_concat (t : FolderTree) (states : List Folding) (f : Folding) (id : String) :
    t.lastShown? (states ++ [f]) id =
      if id ∈ t.visibleIds f then some f else t.lastShown? states id := by
  rw [lastShown?, List.filter_append]
  by_cases h : id ∈ t.visibleIds f <;> simp [h, lastShown?]

theorem FolderTree.lastShown?_eq_none : t.lastShown? states id = none ↔
    ∀ f ∈ states, id ∉ t.visibleIds f := by
  rw [lastShown?, List.getLast?_eq_none_iff, List.filter_eq_nil_iff]
  simp only [decide_eq_true_iff]

namespace Canvas

theorem box_eq (c : Canvas) (id : String) : c.box id = (c.boxes[id]?).getD {} :=
  Std.ExtTreeMap.getD_eq_getD_getElem?

theorem getElem?_write_of_not_mem (h : id ∉ boxes.map Prod.fst) :
    (c.write boxes).boxes[id]? = c.boxes[id]? :=
  Std.ExtTreeMap.getElem?_insertMany_list_of_contains_eq_false (by simpa using h)

/-- What is written over a box does not depend on the box. -/
theorem getElem?_write_of_mem (h : id ∈ boxes.map Prod.fst) (c d : Canvas) :
    (c.write boxes).boxes[id]? = (d.write boxes).boxes[id]? := by
  induction boxes generalizing c d with
  | nil => simp at h
  | cons entry boxes ih =>
    rw [write_cons, write_cons]
    by_cases hrest : id ∈ boxes.map Prod.fst
    · exact ih hrest _ _
    · obtain rfl : id = entry.1 := by simpa [hrest] using h
      rw [getElem?_write_of_not_mem hrest, getElem?_write_of_not_mem hrest, setBox, setBox,
        Std.ExtTreeMap.getElem?_insert_self, Std.ExtTreeMap.getElem?_insert_self]

/-- A layout succeeds or fails with the tree alone, and where it writes it writes what a fresh canvas
would get. -/
theorem layout_over (hwf : c.tree.WellFormed) (h : c.layout f = .ok c') :
    ∃ fresh, ({ tree := c.tree } : Canvas).layout f = .ok fresh ∧
      ∀ id, c'.boxes[id]? = if id ∈ c.tree.visibleIds f then fresh.boxes[id]? else c.boxes[id]? := by
  obtain ⟨boxes, hb, rfl⟩ := layout_eq_ok hwf h
  refine ⟨_, layout_of_ok (c := { tree := c.tree }) hwf hb, ?_⟩
  intro id
  rw [← FolderTree.keys_layout hb]
  split
  · rename_i hid
    exact getElem?_write_of_mem hid _ _
  · rename_i hid
    exact getElem?_write_of_not_mem hid

theorem exists_layout_of_tree {d : Canvas} (hwf : d.tree.WellFormed) (ht : c.tree = d.tree)
    (h : c.layout f = .ok c') : ∃ d', d.layout f = .ok d' := by
  obtain ⟨boxes, hb, -⟩ := layout_eq_ok (ht ▸ hwf) h
  exact ⟨_, layout_of_ok hwf (ht ▸ hb)⟩

theorem write_write (c : Canvas) (boxes : Boxes) : (c.write boxes).write boxes = c.write boxes := by
  have hboxes : ((c.write boxes).write boxes).boxes = (c.write boxes).boxes := by
    apply Std.ExtTreeMap.ext_getElem?
    intro id
    by_cases hid : id ∈ boxes.map Prod.fst
    · exact getElem?_write_of_mem hid _ _
    · exact getElem?_write_of_not_mem hid
  exact Canvas.ext rfl hboxes rfl

theorem layout_layout (hwf : c.tree.WellFormed) (h : c.layout f = .ok c') : c'.layout f = .ok c' := by
  obtain ⟨boxes, hb, rfl⟩ := layout_eq_ok hwf h
  rw [layout_of_ok (c := c.write boxes) hwf hb, write_write]

theorem layouts_concat : c.layouts (states ++ [f]) = .ok c' ↔
    ∃ mid, c.layouts states = .ok mid ∧ mid.layout f = .ok c' := by
  rw [layouts, List.foldlM_append, bind_eq_ok]
  simp [layouts]

theorem tree_and_colors_layouts (h : c.layouts states = .ok c') : c'.tree = c.tree ∧ c'.colors = c.colors := by
  induction states using List.reverseRecOn generalizing c' with
  | nil =>
    cases h
    exact ⟨rfl, rfl⟩
  | append_singleton states f ih =>
    obtain ⟨mid, hm, hl⟩ := layouts_concat.mp h
    rw [tree_layout hl, colors_layout hl]
    exact ih hm

/-- The layouts succeed if each of them succeeds on a fresh canvas. -/
theorem layouts_isOk_iff (hwf : c.tree.WellFormed) : (∃ c', c.layouts states = .ok c') ↔
    ∀ f ∈ states, ∃ fresh, ({ tree := c.tree } : Canvas).layout f = .ok fresh := by
  induction states using List.reverseRecOn with
  | nil => simpa using ⟨c, rfl⟩
  | append_singleton states f ih =>
    constructor
    · rintro ⟨c', h⟩ g hg
      obtain ⟨mid, hm, hl⟩ := layouts_concat.mp h
      rcases List.mem_append.mp hg with hg | hg
      · exact ih.mp ⟨mid, hm⟩ g hg
      · obtain rfl := List.mem_singleton.mp hg
        exact exists_layout_of_tree hwf (tree_and_colors_layouts hm).1 hl
    · intro hall
      obtain ⟨mid, hm⟩ := ih.mpr (fun g hg => hall g (List.mem_append_left _ hg))
      obtain ⟨fresh, hf⟩ := hall f (by simp)
      have ht : ({ tree := c.tree } : Canvas).tree = mid.tree := (tree_and_colors_layouts hm).1.symm
      obtain ⟨c', hl⟩ := exists_layout_of_tree (ht ▸ hwf) ht hf
      exact ⟨c', layouts_concat.mpr ⟨mid, hm, hl⟩⟩

/-- What the layouts have written for an item is what the last one that saw it writes on a fresh canvas. -/
theorem boxes_layouts (hwf : t.WellFormed)
    (h : ({ tree := t, colors := colors } : Canvas).layouts states = .ok c) (id : String) :
    (t.lastShown? states id = none → c.boxes[id]? = none) ∧
      ∀ f, t.lastShown? states id = some f →
        ∃ fresh, ({ tree := t } : Canvas).layout f = .ok fresh ∧ c.boxes[id]? = fresh.boxes[id]? := by
  induction states using List.reverseRecOn generalizing c with
  | nil =>
    cases h
    exact ⟨fun _ => Std.ExtTreeMap.getElem?_empty, fun f hf => by simp [FolderTree.lastShown?] at hf⟩
  | append_singleton states f ih =>
    obtain ⟨mid, hm, hl⟩ := layouts_concat.mp h
    have ht : mid.tree = t := (tree_and_colors_layouts hm).1
    obtain ⟨fresh, hf, hboxes⟩ := layout_over (ht ▸ hwf) hl
    rw [t.lastShown?_concat, hboxes]
    rw [ht] at hf ⊢
    split
    · refine ⟨nofun, ?_⟩
      rintro _ ⟨⟩
      exact ⟨fresh, hf, rfl⟩
    · exact ih hm

/-- Once all is seen again that has been seen before, the canvas is as after one layout. -/
theorem layout_layouts (hwf : t.WellFormed)
    (h : ({ tree := t, colors := colors } : Canvas).layouts states = .ok c)
    (hall : ∀ g ∈ states, t.ClosesMore f g) (hl : c.layout f = .ok c') :
    ({ tree := t, colors := colors } : Canvas).layout f = .ok c' := by
  obtain ⟨ht, hcolors⟩ := tree_and_colors_layouts h
  obtain ⟨once, ho⟩ := exists_layout_of_tree (d := { tree := t, colors := colors }) hwf ht hl
  have hboxes : once.boxes = c'.boxes := by
    apply Std.ExtTreeMap.ext_getElem?
    intro id
    obtain ⟨fresh, hf, hover⟩ := layout_over (ht ▸ hwf) hl
    obtain ⟨fresh', hf', hover'⟩ := layout_over hwf ho
    rw [hover, hover', ht]
    obtain rfl : fresh = fresh' := by
      rw [ht, hf'] at hf
      exact (Except.ok.inj hf).symm
    split
    · rfl
    · rename_i hid
      have hnever : t.lastShown? states id = none := FolderTree.lastShown?_eq_none.mpr
        (fun g hg hshown => hid ((hwf.visibleIds_sublist (hall g hg)).mem hshown))
      rw [(boxes_layouts hwf h id).1 hnever]
      exact Std.ExtTreeMap.getElem?_empty
  have hsame : once = c' := by
    apply Canvas.ext _ hboxes
    · rw [colors_layout ho, colors_layout hl, hcolors]
    · rw [tree_layout ho, tree_layout hl, ht]
  rw [ho, hsame]

end Canvas

/-- After any layouts in a row, an item has the box that one layout of the fresh tree gives it under the last
folding that shows it, and an empty box if none does. The tree and its colours stay as they are. A layout
done twice is done once, and opening again what has been closed gives the canvas of one layout. -/
theorem layouts_keep_last_sight (hb : FolderTree.build files = .ok t)
    (colors : Std.ExtTreeMap String String) (states : List Folding) :
    ((∃ c, ({ tree := t, colors := colors } : Canvas).layouts states = .ok c) ↔
      ∀ f ∈ states, ∃ fresh, ({ tree := t } : Canvas).layout f = .ok fresh) ∧
    ∀ c, ({ tree := t, colors := colors } : Canvas).layouts states = .ok c →
      c.tree = t ∧ c.colors = colors ∧
      (∀ id f, t.lastShown? states id = some f →
        ∃ fresh, ({ tree := t } : Canvas).layout f = .ok fresh ∧ c.box id = fresh.box id) ∧
      (∀ id, t.lastShown? states id = none → c.box id = ⟨0, 0, 0, 0⟩) ∧
      (∀ f c', c.layout f = .ok c' → c'.layout f = .ok c') ∧
      ∀ f c', (∀ g ∈ states, t.ClosesMore f g) → c.layout f = .ok c' →
        ({ tree := t, colors := colors } : Canvas).layout f = .ok c' := by
  have hwf : t.WellFormed := (FolderTree.wellFormed_build hb).1
  refine ⟨Canvas.layouts_isOk_iff hwf, ?_⟩
  intro c h
  obtain ⟨ht, hcolors⟩ := Canvas.tree_and_colors_layouts h
  refine ⟨ht, hcolors, ?_, ?_, ?_, ?_⟩
  · intro id f hid
    obtain ⟨fresh, hf, hbox⟩ := (Canvas.boxes_layouts hwf h id).2 f hid
    refine ⟨fresh, hf, ?_⟩
    rw [Canvas.box_eq, Canvas.box_eq, hbox]
  · intro id hid
    rw [Canvas.box_eq, (Canvas.boxes_layouts hwf h id).1 hid]
    rfl
  · intro f c'
    exact Canvas.layout_layout (ht ▸ hwf)
  · intro f c' hall hl
    exact Canvas.layout_layouts hwf h hall hl

theorem layouts_keep_last_sight_nested :
    let f := Folding.empty.set "a/b" false
    let g := f.set "a" false
    FolderTree.build FolderTree.nestedFiles = .ok FolderTree.nested ∧
      ∃ c, ({ tree := FolderTree.nested } : Canvas).layouts [f, g] = .ok c ∧
        c.box "a/b/c" = ⟨0, 0, 0, 0⟩ ∧
        ∃ fresh, ({ tree := FolderTree.nested } : Canvas).layout f = .ok fresh ∧
          c.box "a/d" = fresh.box "a/d" := by
  intro f g
  have hf := Canvas.layout_of_ok (c := { tree := FolderTree.nested }) FolderTree.wellFormed_nested
    FolderTree.layout_nested
  have hg : FolderTree.nested.layout g = .ok
      [("root", ⟨0, 0, 450, 210⟩), ("a", ⟨40, 100, 150, 60⟩), ("e", ⟨210, 100, 220, 70⟩)] := by
    rw [FolderTree.layout, FolderTree.display_nested]
    decide +kernel
  have hshownf := FolderTree.keys_layout FolderTree.layout_nested
  have hshowng := FolderTree.keys_layout hg
  obtain ⟨hok, h⟩ := layouts_keep_last_sight FolderTree.build_nestedFiles {} [f, g]
  obtain ⟨c, hc⟩ := hok.mpr (by simpa using ⟨⟨_, hf⟩, _, Canvas.layout_of_ok FolderTree.wellFormed_nested hg⟩)
  obtain ⟨-, -, hlast, hnever, -⟩ := h c hc
  refine ⟨FolderTree.build_nestedFiles, c, hc, hnever "a/b/c" ?_, hlast "a/d" f ?_⟩
  · simp [FolderTree.lastShown?, f, ← hshownf, ← hshowng]
  · simp [FolderTree.lastShown?, f, ← hshownf, ← hshowng]

end Foldergram
