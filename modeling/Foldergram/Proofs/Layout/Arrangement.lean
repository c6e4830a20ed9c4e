import Foldergram.Layout.Pass
import Foldergram.Proofs.Layout.Packing
import Foldergram.Proofs.Projection.Visibility
import Mathlib.Data.List.Forall2

/-!
A layout as a value: the boxes of everything visible, found without a canvas. There is a box for every
visible item and for no other, and the boxes of a folder's contents are those of one packing.
-/

namespace Foldergram

/-- The boxes of visible items by their ids, an item before its contents. -/
abbrev Boxes := List (String × Box)

/-- The size of an item, and the boxes of what is visible inside it. -/
structure Arrangement where
  size : Size
  inside : Boxes

/-- The boxes of packed siblings and of what is inside them. -/
def placeParts : List (String × Arrangement) → List Position → Boxes
  | (id, part) :: parts, position :: positions =>
    (id, Box.ofCorner position part.size) :: (part.inside ++ placeParts parts positions)
  | _, _ => []

namespace Item

mutual

/-- Arranges an item whose siblings are in display order. -/
def arrange (f : Folding) : Item → Checked Arrangement
  | .file _ _ => .ok ⟨fileSize, []⟩
  | .folder id name contents =>
    if f.isCollapsed id then .ok ⟨⟨collapsedWidth name, headerHeight⟩, []⟩
    else do
      let parts ← arrangeAll f contents
      let packing ← pack (parts.map (·.2.size))
      return ⟨packing.size, placeParts parts packing.positions⟩

def arrangeAll (f : Folding) : List Item → Checked (List (String × Arrangement))
  | [] => .ok []
  | item :: items => do
    let part ← item.arrange f
    return (item.id, part) :: (← arrangeAll f items)

end

end Item

/-- The boxes of all visible items, the root at the corner of the canvas. -/
def FolderTree.layout (t : FolderTree) (f : Folding) : Checked Boxes := do
  let whole ← t.root.display.arrange f
  return (rootId, Box.ofCorner ⟨0, 0⟩ whole.size) :: whole.inside

variable {f : Folding} {id name : String} {boxes : Boxes}

namespace Item

variable {x : Item} {items contents : List Item} {a : Arrangement} {parts : List (String × Arrangement)}

/-- The arrangement that an item has got among its siblings. -/
def Arranges (f : Folding) (x : Item) (part : String × Arrangement) : Prop :=
  part.1 = x.id ∧ x.arrange f = .ok part.2

theorem arrangeAll_eq_ok (h : arrangeAll f items = .ok parts) :
    List.Forall₂ (Arranges f) items parts := by
  induction items generalizing parts with
  | nil =>
    cases h
    exact .nil
  | cons x items ih =>
    obtain ⟨part, hp, h⟩ := bind_eq_ok.mp h
    obtain ⟨rest, hr, h⟩ := bind_eq_ok.mp h
    cases h
    exact .cons ⟨rfl, hp⟩ (ih hr)

theorem map_id_of_arranges (h : List.Forall₂ (Arranges f) items parts) :
    items.map Item.id = parts.map Prod.fst := by
  induction h with
  | nil => rfl
  | cons hx _ ih => rw [List.map_cons, List.map_cons, hx.1, ih]

theorem arrange_collapsed (hc : f.isCollapsed id = true) (h : (folder id name contents).arrange f = .ok a) :
    a = ⟨⟨collapsedWidth name, headerHeight⟩, []⟩ := by
  rw [arrange, if_pos hc] at h
  cases h
  rfl

theorem arrange_expanded (ho : f.isExpanded id = true) (h : (folder id name contents).arrange f = .ok a) :
    ∃ parts packing, List.Forall₂ (Arranges f) contents parts ∧
      pack (parts.map (·.2.size)) = .ok packing ∧
      a = ⟨packing.size, placeParts parts packing.positions⟩ := by
  have hc : ¬ f.isCollapsed id = true := by simpa [Folding.isExpanded] using ho
  rw [arrange, if_neg hc] at h
  obtain ⟨parts, hp, h⟩ := bind_eq_ok.mp h
  obtain ⟨packing, hk, h⟩ := bind_eq_ok.mp h
  cases h
  exact ⟨parts, packing, arrangeAll_eq_ok hp, hk, rfl⟩

theorem size_arrange_le (h : x.arrange f = .ok a) :
    a.size.width ≤ coordinateLimit ∧ a.size.height ≤ coordinateLimit := by
  cases x with
  | file name source =>
    cases h
    decide
  | folder id name contents =>
    by_cases ho : f.isExpanded id = true
    · obtain ⟨parts, packing, -, hpack, rfl⟩ := arrange_expanded ho h
      exact size_pack_le hpack
    · rw [arrange_collapsed (by simpa [Folding.isExpanded] using ho) h]
      simp only [collapsedWidth, Folding.leastWidth, Folding.greatestWidth, headerHeight, coordinateLimit]
      omega

end Item

/-- The ids of arranged siblings and of all that is inside them. -/
def partIds (parts : List (String × Arrangement)) : List String :=
  parts.flatMap fun part => part.1 :: part.2.inside.map Prod.fst

theorem partIds_cons (part : String × Arrangement) (parts : List (String × Arrangement)) :
    partIds (part :: parts) = part.1 :: part.2.inside.map Prod.fst ++ partIds parts := rfl

theorem keys_placeParts {parts : List (String × Arrangement)} {positions : List Position}
    (h : positions.length = parts.length) :
    (placeParts parts positions).map Prod.fst = partIds parts := by
  induction parts generalizing positions with
  | nil => simp [placeParts, partIds]
  | cons part parts ih =>
    cases positions with
    | nil => simp at h
    | cons position positions =>
      have hl : positions.length = parts.length := by simpa using h
      simp [placeParts, partIds_cons, ih hl]

/-- Siblings whose boxes are those of what is visible of them. -/
theorem partIds_eq_flatMap {items : List Item} {parts : List (String × Arrangement)} {above : Option String}
    (h : List.Forall₂ (fun x part => part.1 :: part.2.inside.map Prod.fst = (x.visible f above).map (·.1.id))
      items parts) : partIds parts = items.flatMap fun x => (x.visible f above).map (·.1.id) := by
  induction h with
  | nil => rfl
  | cons hx _ ih => rw [partIds_cons, List.flatMap_cons, hx, ih]

/-- What an arrangement has boxes for is what is visible. -/
theorem Item.keys_arrange {x : Item} {a : Arrangement} (h : x.arrange f = .ok a) (above : Option String) :
    x.id :: a.inside.map Prod.fst = (x.visible f above).map (·.1.id) := by
  induction x generalizing a above with
  | file name source =>
    cases h
    rfl
  | folder id name contents ih =>
    rw [visible_folder, List.map_cons]
    congr 1
    by_cases ho : f.isExpanded id = true
    · obtain ⟨parts, packing, hparts, hpack, rfl⟩ := arrange_expanded ho h
      have hl : packing.positions.length = parts.length := by simpa using length_positions hpack
      rw [if_pos ho, keys_placeParts hl, List.map_flatMap]
      apply partIds_eq_flatMap
      refine ((List.forall₂_and_left (p := (· ∈ contents)) _ _).mpr ⟨fun _ hx => hx, hparts⟩).imp ?_
      rintro x part ⟨hx, hid, ha⟩
      rw [hid, ih x hx ha (some id)]
    · rw [if_neg ho]
      have hc : f.isCollapsed id = true := by simpa [Folding.isExpanded] using ho
      rw [arrange_collapsed hc h]
      rfl

/-- The ids of arranged siblings are those of what is visible. -/
theorem Item.partIds_of_arranges {items : List Item} {parts : List (String × Arrangement)}
    (h : List.Forall₂ (Arranges f) items parts) (above : Option String) :
    partIds parts = items.flatMap fun x => (x.visible f above).map (·.1.id) := by
  refine partIds_eq_flatMap (h.imp ?_)
  rintro x part ⟨hid, ha⟩
  rw [hid, keys_arrange ha above]

theorem FolderTree.layout_eq_ok {t : FolderTree} (h : t.layout f = .ok boxes) :
    ∃ whole, t.root.display.arrange f = .ok whole ∧
      boxes = (rootId, Box.ofCorner ⟨0, 0⟩ whole.size) :: whole.inside := by
  obtain ⟨whole, hw, h⟩ := bind_eq_ok.mp h
  exact ⟨whole, hw, (pure_eq_ok.mp h).symm⟩

theorem FolderTree.keys_layout {t : FolderTree} (h : t.layout f = .ok boxes) :
    boxes.map Prod.fst = t.visibleIds f := by
  obtain ⟨whole, hw, rfl⟩ := layout_eq_ok h
  exact Item.keys_arrange hw none

theorem FolderTree.display_nested : nested.root.display = nested.root := by
  have hone : ∀ x, Item.displayOrder [x] = [x] := fun x =>
    Item.displayOrder_of_pairwise (by simp)
  have htwo : ∀ id name contents file source, Item.displayOrder
      [.folder id name contents, .file file source] = [.folder id name contents, .file file source] :=
    fun _ _ _ _ _ => Item.displayOrder_of_pairwise (by simp [Item.compareDisplay])
  simp [nested, root, hone, htwo]

theorem FolderTree.layout_nested : nested.layout (Folding.empty.set "a/b" false) = .ok
    [("root", ⟨0, 0, 750, 350⟩), ("a", ⟨40, 100, 450, 210⟩), ("a/b", ⟨40, 100, 150, 60⟩),
      ("a/d", ⟨210, 100, 220, 70⟩), ("e", ⟨510, 100, 220, 70⟩)] := by
  rw [layout, display_nested]
  decide +kernel

end Foldergram
