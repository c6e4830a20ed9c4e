import Foldergram.Canvas
import Foldergram.Proofs.Tree.Build

/-!
Painting gives every item of the tree the colour of its id, in whatever order the items come. The empty text
stands for no colour, and a palette may hold it as well: an item that falls on it stays without a colour and
gets one from a later palette.
-/

namespace Foldergram

namespace Palette

variable {p : Palette}

/-- The colour that the first palette with one for this id has, or the empty text. -/
def firstColor (palettes : List Palette) (id : String) : String :=
  ((palettes.find? (·.color id ≠ "")).map (·.color id)).getD ""

@[simp] theorem firstColor_nil (id : String) : firstColor [] id = "" := rfl

theorem firstColor_cons (p : Palette) (palettes : List Palette) (id : String) :
    firstColor (p :: palettes) id = if p.color id = "" then firstColor palettes id else p.color id := by
  by_cases h : p.color id = "" <;> simp [firstColor, h]

theorem firstColor_append (palettes more : List Palette) (id : String) :
    firstColor (palettes ++ more) id =
      if firstColor palettes id = "" then firstColor more id else firstColor palettes id := by
  induction palettes with
  | nil => simp
  | cons p palettes ih =>
    rw [List.cons_append, firstColor_cons, firstColor_cons, ih]
    by_cases h : p.color id = "" <;> simp [h]

@[simp] theorem color_nil (id : String) : color [] id = fallback := rfl

/-- The hash of an id is reduced to a place in the palette. -/
theorem slot_lt (hp : p ≠ []) (id : String) : p.slot id < p.length :=
  Nat.mod_lt _ (List.length_pos_iff.mpr hp)

theorem color_mem (hp : p ≠ []) (id : String) : p.color id ∈ p := by
  rw [color, List.getD_eq_getElem?_getD, List.getElem?_eq_getElem (slot_lt hp id)]
  exact List.getElem_mem _

end Palette

namespace Canvas

variable {c : Canvas} {p : Palette} {t : FolderTree} {files : List SourceFile}

theorem getD_paintItem (p : Palette) (colors : Std.ExtTreeMap String String) (id other : String) :
    (paintItem p colors id).getD other "" =
      if other = id ∧ colors.getD other "" = "" then p.color other else colors.getD other "" := by
  unfold paintItem
  by_cases hc : colors.getD id "" = ""
  · rw [if_pos hc, Std.ExtTreeMap.getD_insert]
    by_cases ho : id = other
    · subst ho
      simp [hc]
    · have hne : ¬ compare id other = .eq := fun he => ho (Std.LawfulEqCmp.eq_of_compare he)
      rw [if_neg hne, if_neg fun h => ho h.1.symm]
  · rw [if_neg hc, if_neg]
    rintro ⟨rfl, h⟩
    exact hc h

/-- An item that is met again has either a colour by now, or it falls on an empty one again. -/
theorem getD_foldl_paintItem (p : Palette) (ids : List String) (colors : Std.ExtTreeMap String String)
    (id : String) : (ids.foldl (paintItem p) colors).getD id "" =
      if id ∈ ids ∧ colors.getD id "" = "" then p.color id else colors.getD id "" := by
  induction ids generalizing colors with
  | nil => simp
  | cons other ids ih =>
    rw [List.foldl_cons, ih, getD_paintItem]
    by_cases ho : id = other
    · by_cases hc : colors.getD id "" = "" <;> by_cases hp : p.color id = "" <;> simp [← ho, hc, hp]
    · simp [ho]

/-- One palette: an item of the tree that has no colour gets its own. -/
theorem color_paint (c : Canvas) (p : Palette) (id : String) :
    (c.paint p).color id =
      if id ∈ c.tree.created ∧ c.color id = "" then p.color id else c.color id :=
  getD_foldl_paintItem p c.tree.created c.colors id

/-- Paints with one palette after another. -/
def paintAll (c : Canvas) (palettes : List Palette) : Canvas :=
  palettes.foldl paint c

/-- The colours of the items of a tree after any number of palettes. -/
theorem color_paintAll (c : Canvas) (palettes : List Palette) {id : String} (hid : id ∈ c.tree.created) :
    (c.paintAll palettes).color id =
      if c.color id = "" then Palette.firstColor palettes id else c.color id := by
  induction palettes generalizing c with
  | nil =>
    by_cases h : c.color id = "" <;> simp [paintAll, h]
  | cons p palettes ih =>
    have hstep : c.paintAll (p :: palettes) = (c.paint p).paintAll palettes := rfl
    rw [hstep, ih (c.paint p) hid, color_paint, Palette.firstColor_cons]
    by_cases h : c.color id = "" <;> simp [hid, h]

@[simp] theorem color_fresh (t : FolderTree) (id : String) : ({ tree := t } : Canvas).color id = "" := by
  simp [color]

/-- An item of a built tree has the colour that the first palette with one for its id gives it. -/
theorem color_of_built (hb : FolderTree.build files = .ok t) (palettes : List Palette) {id : String}
    (hid : id ∈ t.items.map Item.id) :
    (paintAll { tree := t } palettes).color id = Palette.firstColor palettes id := by
  have hc : id ∈ t.created := (FolderTree.wellFormed_build hb).1.created.mem_iff.mpr hid
  rw [color_paintAll _ _ hc, color_fresh, if_pos rfl]

end Canvas

open Canvas

/-- The colours of a tree under any number of palettes. Every item has the colour of the first palette that has
one for its id, and none if no palette has; a colour is kept whatever palettes follow; an item of the same id
in any other tree gets the same colour; and a palette with entries gives one of them. -/
theorem colors_settle {files : List SourceFile} {t : FolderTree} (hb : FolderTree.build files = .ok t)
    (palettes : List Palette) :
    (∀ x ∈ t.items, (paintAll { tree := t } palettes).color x.id = Palette.firstColor palettes x.id) ∧
    (∀ x ∈ t.items, ∀ more, (paintAll { tree := t } palettes).color x.id ≠ "" →
      (paintAll { tree := t } (palettes ++ more)).color x.id = (paintAll { tree := t } palettes).color x.id) ∧
    (∀ files' t', FolderTree.build files' = .ok t' → ∀ x ∈ t.items, ∀ y ∈ t'.items, x.id = y.id →
      (paintAll { tree := t } palettes).color x.id = (paintAll { tree := t' } palettes).color y.id) ∧
    ∀ p : Palette, p ≠ [] → ∀ id, p.slot id < p.length ∧ p.color id ∈ p := by
  have hcolor : ∀ x ∈ t.items, ∀ palettes,
      (paintAll { tree := t } palettes).color x.id = Palette.firstColor palettes x.id :=
    fun x hx palettes => color_of_built hb palettes (List.mem_map_of_mem hx)
  refine ⟨fun x hx => hcolor x hx palettes, ?_, ?_, ?_⟩
  · intro x hx more hgiven
    rw [hcolor x hx] at hgiven
    rw [hcolor x hx, hcolor x hx, Palette.firstColor_append, if_neg hgiven]
  · intro files' t' hb' x hx y hy hid
    rw [hcolor x hx, color_of_built hb' palettes (List.mem_map_of_mem hy), hid]
  · intro p hp id
    exact ⟨Palette.slot_lt hp id, Palette.color_mem hp id⟩

/-- Every item falls on an empty text at first, then gets the colour of the empty palette, and keeps it. -/
theorem colors_settle_nested :
    FolderTree.build FolderTree.nestedFiles = .ok FolderTree.nested ∧
    ∀ x ∈ FolderTree.nested.items, (paintAll { tree := FolderTree.nested } [[""], [], ["#000000"]]).color x.id =
      Palette.fallback := by
  refine ⟨FolderTree.build_nestedFiles, fun x hx => ?_⟩
  rw [(colors_settle FolderTree.build_nestedFiles [[""], [], ["#000000"]]).1 x hx]
  have hempty : Palette.color [""] x.id = "" :=
    List.mem_singleton.mp (Palette.color_mem (by decide) x.id)
  have hfallback : Palette.fallback ≠ "" := by decide
  rw [Palette.firstColor_cons, if_pos hempty, Palette.firstColor_cons, Palette.color_nil, if_neg hfallback]

end Foldergram
