import Foldergram.Proofs.Tree.Display
import Foldergram.Proofs.Tree.PrefixTree

/-!
Items without what is written on their files. Labels and counts have no part in where items stand and in
which order they are shown: that is decided by the paths of the files alone.
-/

namespace Foldergram

/-- The file by its path alone. -/
def SourceFile.bare (source : SourceFile) : SourceFile where
  id := source.id

namespace Item

open Foldergram.Path

variable {x y : Item} {above : List String} {items : List Item}

mutual

/-- The item without the labels and counts of its files. -/
def bare : Item → Item
  | .file name source => .file name source.bare
  | .folder id name contents => .folder id name (bareOf contents)

def bareOf : List Item → List Item
  | [] => []
  | item :: items => item.bare :: bareOf items

end

theorem bareOf_eq_map (items : List Item) : bareOf items = items.map bare := by
  induction items with
  | nil => rfl
  | cons x items ih => simp [bareOf, ih]

@[simp] theorem bare_file (name : String) (source : SourceFile) :
    (file name source).bare = .file name source.bare := rfl

@[simp] theorem bare_folder (id name : String) (contents : List Item) :
    (folder id name contents).bare = .folder id name (contents.map bare) := by
  rw [bare, bareOf_eq_map]

@[simp] theorem id_bare (x : Item) : x.bare.id = x.id := by
  cases x <;> rfl

@[simp] theorem name_bare (x : Item) : x.bare.name = x.name := by
  cases x <;> rfl

@[simp] theorem isFolder_bare (x : Item) : x.bare.isFolder = x.isFolder := by
  cases x <;> rfl

theorem all_bare (x : Item) : x.bare.all = x.all.map bare := by
  induction x with
  | file name source => rfl
  | folder id name contents ih =>
    rw [bare_folder, all_folder, all_folder, List.map_cons, bare_folder, List.flatMap_map, List.map_flatMap]
    exact congrArg _ (List.flatMap_congr ih)

theorem files_bare (x : Item) : x.bare.files = x.files.map SourceFile.bare := by
  induction x with
  | file name source => rfl
  | folder id name contents ih =>
    rw [bare_folder, files_folder, files_folder, List.flatMap_map, List.map_flatMap]
    exact List.flatMap_congr ih

theorem mem_files_bare {source : SourceFile} : source ∈ x.bare.files ↔
    source.bare = source ∧ source.id ∈ x.files.map (·.id) := by
  rw [files_bare, List.mem_map, List.mem_map]
  constructor
  · rintro ⟨s, hs, rfl⟩
    exact ⟨rfl, s, hs, rfl⟩
  · rintro ⟨hb, s, hs, hid⟩
    exact ⟨s, hs, by rw [← hb, SourceFile.bare, SourceFile.bare, hid]⟩

theorem map_id_bare (items : List Item) : (items.map bare).map Item.id = items.map Item.id := by
  simp

theorem WellPlaced.bare (h : x.WellPlaced above) : x.bare.WellPlaced above := by
  induction h with
  | file hid => exact .file hid
  | @folder above id name contents hid hne hd _ ih =>
    rw [bare_folder]
    refine .folder hid (by simpa using hne) (by rwa [map_id_bare]) ?_
    intro y hy
    obtain ⟨x, hx, rfl⟩ := List.mem_map.mp hy
    exact ih x hx

theorem Siblings.bare (h : Siblings above items) : Siblings above (items.map Item.bare) where
  distinct := by rw [map_id_bare]; exact h.distinct
  placed := by
    intro y hy
    obtain ⟨x, hx, rfl⟩ := List.mem_map.mp hy
    exact (h.placed x hx).bare

/-- What decides the order of siblings is not taken away. -/
theorem displayOrder_map_bare (items : List Item) :
    displayOrder (items.map bare) = (displayOrder items).map bare := by
  refine (List.map_mergeSort ?_).symm
  intro x _ y _
  simp [compareDisplay]

theorem display_bare (x : Item) : x.bare.display = x.display.bare := by
  induction x with
  | file name source => rfl
  | folder id name contents ih =>
    have hin : (contents.map bare).map display = (contents.map display).map bare := by
      simpa using ih
    rw [bare_folder, display_folder, display_folder, bare_folder, hin, displayOrder_map_bare]

end Item

namespace FolderTree

variable {t t' : FolderTree} {x y : Item}

def bare (t : FolderTree) : FolderTree where
  contents := t.contents.map Item.bare
  created := t.created

theorem root_bare (t : FolderTree) : t.bare.root = t.root.bare := by
  rw [root, root, Item.bare_folder]
  rfl

theorem items_bare (t : FolderTree) : t.bare.items = t.items.map Item.bare := by
  rw [items, items, root_bare, Item.all_bare]

theorem WellFormed.bare (h : t.WellFormed) : t.bare.WellFormed where
  siblings := h.siblings.bare
  rootFree := by
    intro y hy
    obtain ⟨x, hx, rfl⟩ := List.mem_map.mp hy
    rw [Item.id_bare]
    exact h.rootFree x hx
  created := by
    rw [items_bare, Item.map_id_bare]
    exact h.created

theorem WellFormed.eq_root (h : t.WellFormed) (hx : x ∈ t.items) (hid : x.id = rootId) : x = t.root :=
  List.inj_on_of_nodup_map h.ids_nodup hx (Item.mem_all_self t.root) hid

/-- Items of one id and the same files look the same, whatever else the two trees hold. -/
theorem WellFormed.display_eq (h : t.WellFormed) (h' : t'.WellFormed) (hx : x ∈ t.items)
    (hy : y ∈ t'.items) (hid : x.id = y.id) (hf : ∀ source, source ∈ x.files ↔ source ∈ y.files) :
    x.display = y.display := by
  by_cases hroot : x.id = rootId
  · obtain rfl := h.eq_root hx hroot
    obtain rfl := h'.eq_root hy (hid ▸ hroot)
    refine h.root_display_eq h' ?_
    simpa [root, files] using hf
  · have hpx := (h.place_of_ne hx hroot).1
    have hpy := (h'.place_of_ne hy (hid ▸ hroot)).1
    rw [← hid] at hpy
    exact hpx.display_eq hpy hid hf

/-- If only the paths of the files are the same, the items look the same but for what is written on files. -/
theorem WellFormed.display_bare_eq (h : t.WellFormed) (h' : t'.WellFormed) (hx : x ∈ t.items)
    (hy : y ∈ t'.items) (hid : x.id = y.id)
    (hf : ∀ path, path ∈ x.files.map (·.id) ↔ path ∈ y.files.map (·.id)) :
    x.display.bare = y.display.bare := by
  rw [← Item.display_bare, ← Item.display_bare]
  refine h.bare.display_eq h'.bare ?_ ?_ (by simpa using hid) ?_
  · rw [items_bare]
    exact List.mem_map_of_mem hx
  · rw [items_bare]
    exact List.mem_map_of_mem hy
  · intro source
    rw [Item.mem_files_bare, Item.mem_files_bare, hf]

end FolderTree

end Foldergram
