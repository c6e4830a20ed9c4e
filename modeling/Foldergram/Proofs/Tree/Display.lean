import Foldergram.Proofs.Tree.WellPlaced
import Foldergram.Tree.Display
import Mathlib.Data.List.Perm.Basic

/-!
Display order. Siblings in display order stand in one fixed order, whatever order they were found in,
and so a displayed tree is determined by its files.
-/

namespace Foldergram.Item

open Foldergram.Path

variable {top x y : Item} {id name : String} {above chain : List String} {contents items items' : List Item}

theorem displayOf_eq_map (items : List Item) : displayOf items = items.map display := by
  induction items with
  | nil => rfl
  | cons x items ih => simp [displayOf, ih]

@[simp] theorem display_file (name : String) (source : SourceFile) :
    (file name source).display = .file name source := rfl

@[simp] theorem display_folder (id name : String) (contents : List Item) :
    (folder id name contents).display = .folder id name (displayOrder (contents.map display)) := by
  rw [display, displayOf_eq_map]

@[simp] theorem id_display (x : Item) : x.display.id = x.id := by
  cases x <;> rfl

@[simp] theorem name_display (x : Item) : x.display.name = x.name := by
  cases x <;> rfl

@[simp] theorem isFolder_display (x : Item) : x.display.isFolder = x.isFolder := by
  cases x <;> rfl

theorem displayOrder_perm (items : List Item) : (displayOrder items).Perm items :=
  List.mergeSort_perm ..

theorem displayOrder_of_pairwise (h : items.Pairwise fun x y => (compareDisplay x y).isLE = true) :
    displayOrder items = items :=
  List.mergeSort_of_pairwise h

@[simp] theorem mem_displayOrder : x ∈ displayOrder items ↔ x ∈ items :=
  (displayOrder_perm items).mem_iff

theorem map_id_display (items : List Item) : (items.map display).map Item.id = items.map Item.id := by
  simp

theorem all_display_perm (x : Item) : x.display.all.Perm (x.all.map display) := by
  induction x with
  | file name source => simp
  | folder i name contents ih =>
    simp only [display_folder, all_folder, List.map_cons, List.map_flatMap]
    refine List.Perm.cons _ (((displayOrder_perm _).flatMap_right _).trans ?_)
    rw [List.flatMap_map]
    exact List.Perm.flatMap_left _ ih

theorem ids_display_perm (x : Item) : (x.display.all.map Item.id).Perm (x.all.map Item.id) := by
  have h := (all_display_perm x).map Item.id
  rwa [map_id_display] at h

theorem Place.display (h : top.Place x chain) : top.display.Place x.display chain := by
  induction h with
  | here => exact .here
  | inside _ hx ih =>
    rw [display_folder] at ih
    exact .inside ih (mem_displayOrder.mpr (List.mem_map_of_mem hx))

theorem Place.of_display (h : top.display.Place y chain) :
    ∃ x, top.Place x chain ∧ y = x.display := by
  induction h with
  | here => exact ⟨top, .here, rfl⟩
  | @inside y id name contents chain _ hy ih =>
    obtain ⟨x, hp, hx⟩ := ih
    cases x with
    | file name source => simp at hx
    | folder id' name' contents' =>
      obtain ⟨rfl, rfl, rfl⟩ : id = id' ∧ name = name' ∧
        contents = displayOrder (contents'.map Item.display) := by simpa using hx
      obtain ⟨z, hz, rfl⟩ := List.mem_map.mp (mem_displayOrder.mp hy)
      exact ⟨z, .inside hp hz, rfl⟩

/-- Display order compares the kind, then the name without regard to case, then the name. -/
theorem compareDisplay_eq : compareDisplay = compareLex (compareOn fun x : Item => !x.isFolder)
    (compareLex (compareOn fun x : Item => Text.lowercase x.name) (compareOn Item.name)) := by
  funext x y
  have hlt : compare false true = .lt := rfl
  have hgt : compare true false = .gt := rfl
  cases x <;> cases y <;> simp [compareDisplay, compareNames, compareLex, compareOn, hlt, hgt]

instance : Std.TransCmp compareDisplay := by
  rw [compareDisplay_eq]
  infer_instance

theorem name_eq_of_compareDisplay (h : compareDisplay x y = .eq) : x.name = y.name := by
  simp only [compareDisplay_eq, compareLex, Ordering.then_eq_eq] at h
  exact Std.compare_eq_iff_eq.mp h.2.2

theorem pairwise_displayOrder (items : List Item) :
    (displayOrder items).Pairwise (fun x y => (compareDisplay x y).isLE = true) := by
  apply List.pairwise_mergeSort
  · intro x y z hxy hyz
    exact Std.TransCmp.isLE_trans hxy hyz
  · intro x y
    rw [Bool.or_eq_true]
    by_cases h : (compareDisplay x y).isLE = true
    · exact Or.inl h
    · exact Or.inr (Std.OrientedCmp.isLE_of_isGE (by cases hc : compareDisplay x y <;> simp_all))

/-- Siblings with different names come into the same display order from any order. -/
theorem displayOrder_eq_of_perm (h : items.Perm items') (hd : (items.map Item.name).Nodup) :
    displayOrder items = displayOrder items' := by
  apply List.Perm.eq_of_pairwise _ (pairwise_displayOrder items) (pairwise_displayOrder items')
  · exact (displayOrder_perm items).trans (h.trans (displayOrder_perm items').symm)
  · intro x y hx hy hxy hyx
    have hy' : y ∈ items := h.mem_iff.mpr (mem_displayOrder.mp hy)
    exact List.inj_on_of_nodup_map hd (mem_displayOrder.mp hx) hy'
      (name_eq_of_compareDisplay (Std.OrientedCmp.isLE_antisymm hxy hyx))

theorem Siblings.names_nodup (h : Siblings above items) : (items.map Item.name).Nodup := by
  have hd : items.Nodup := h.distinct.of_map
  apply hd.map_on
  intro x hx y hy he
  apply h.eq_of_id_eq hx hy
  apply segments_injective
  rw [(h.placed x hx).segments_id, (h.placed y hy).segments_id, he]

/-- A file lies below the same id on both sides, since its path decides below which. -/
theorem Siblings.files_subset (h : Siblings above items) (h' : Siblings above items')
    (hsub : items.flatMap files ⊆ items'.flatMap files) (hx : x ∈ items) :
    ∃ y ∈ items', y.id = x.id ∧ x.files ⊆ y.files := by
  have hover : ∀ source ∈ x.files, ∃ y ∈ items', y.id = x.id ∧ source ∈ y.files := by
    intro source hs
    obtain ⟨y, hy, hs'⟩ := List.mem_flatMap.mp (hsub (List.mem_flatMap.mpr ⟨x, hx, hs⟩))
    have hpx := (h.placed x hx).isPrefix_of_mem_files hs
    have hpy := (h'.placed y hy).isPrefix_of_mem_files hs'
    exact ⟨y, hy, (h'.placed y hy).id_eq_of_isPrefix (h.placed x hx) hpy hpx, hs'⟩
  obtain ⟨source, hs⟩ := List.exists_mem_of_ne_nil _ (h.placed x hx).files_ne_nil
  obtain ⟨y, hy, he, -⟩ := hover source hs
  refine ⟨y, hy, he, ?_⟩
  intro source hs
  obtain ⟨z, hz, he', hs'⟩ := hover source hs
  obtain rfl := h'.eq_of_id_eq hz hy (he'.trans he.symm)
  exact hs'

theorem Siblings.match_files (h : Siblings above items) (h' : Siblings above items')
    (hf : ∀ source, source ∈ items.flatMap files ↔ source ∈ items'.flatMap files) (hx : x ∈ items) :
    ∃ y ∈ items', x.id = y.id ∧ ∀ source, source ∈ x.files ↔ source ∈ y.files := by
  obtain ⟨y, hy, he, hxy⟩ := h.files_subset h' (fun source => (hf source).mp) hx
  obtain ⟨z, hz, he', hyz⟩ := h'.files_subset h (fun source => (hf source).mpr) hy
  obtain rfl := h.eq_of_id_eq hz hx (he'.trans he)
  exact ⟨y, hy, he', fun source => ⟨fun hs => hxy hs, fun hs => hyz hs⟩⟩

theorem Siblings.displayOrder_eq (h : Siblings above items) (h' : Siblings above items')
    (hf : ∀ source, source ∈ items.flatMap files ↔ source ∈ items'.flatMap files)
    (ih : ∀ x ∈ items, ∀ y ∈ items', x.id = y.id →
      (∀ source, source ∈ x.files ↔ source ∈ y.files) → x.display = y.display) :
    displayOrder (items.map display) = displayOrder (items'.map display) := by
  have hd : ∀ {l : List Item}, (l.map Item.id).Nodup → (l.map display).Nodup := by
    intro l hl
    rw [← map_id_display] at hl
    exact hl.of_map
  apply displayOrder_eq_of_perm
  · rw [List.perm_ext_iff_of_nodup (hd h.distinct) (hd h'.distinct)]
    intro z
    constructor
    · intro hz
      obtain ⟨x, hx, rfl⟩ := List.mem_map.mp hz
      obtain ⟨y, hy, he, hfiles⟩ := h.match_files h' hf hx
      exact ih x hx y hy he hfiles ▸ List.mem_map_of_mem hy
    · intro hz
      obtain ⟨y, hy, rfl⟩ := List.mem_map.mp hz
      obtain ⟨x, hx, he, hfiles⟩ := h'.match_files h (fun source => (hf source).symm) hy
      exact ih x hx y hy he.symm (fun source => (hfiles source).symm) ▸ List.mem_map_of_mem hx
  · simpa [Function.comp_def] using h.names_nodup

theorem WellPlaced.not_mem_files (h : (Item.folder id name contents).WellPlaced above)
    {source : SourceFile} (hs : source ∈ contents.flatMap files) : source.id ≠ id := by
  intro he
  exact h.siblings.id_not_mem_files (he ▸ List.mem_map_of_mem hs)

/-- Two items of one id and the same files look the same, however their contents were found. -/
theorem WellPlaced.display_eq (hx : x.WellPlaced above) (hy : y.WellPlaced above) (hid : x.id = y.id)
    (hf : ∀ source, source ∈ x.files ↔ source ∈ y.files) : x.display = y.display := by
  have hname : x.name = y.name := by
    have he : above ++ [x.name] = above ++ [y.name] := by
      rw [← hx.segments_id, ← hy.segments_id, hid]
    simpa using he
  induction x generalizing above y with
  | file name source =>
    cases y with
    | file name' source' => simp_all
    | folder id' name' contents' =>
      have hs : source ∈ contents'.flatMap files := by
        rw [← files_folder id' name']
        exact (hf source).mp (by simp)
      exact (hy.not_mem_files hs hid).elim
  | folder id name contents ih =>
    cases y with
    | file name' source' =>
      have hs : source' ∈ contents.flatMap files := by
        rw [← files_folder id name]
        exact (hf source').mpr (by simp)
      exact (hx.not_mem_files hs hid.symm).elim
    | folder id' name' contents' =>
      obtain rfl : id = id' := hid
      obtain rfl : name = name' := hname
      have hsx := hx.siblings
      have hsy := hy.siblings
      rw [display_folder, display_folder]
      congr 1
      apply hsx.displayOrder_eq hsy (by simpa using hf)
      intro u hu v hv he hfiles
      have hp := hsx.placed u hu
      have hq := hsy.placed v hv
      have hn : u.name = v.name := by
        have he' : segments id ++ [u.name] = segments id ++ [v.name] := by
          rw [← hp.segments_id, ← hq.segments_id, he]
        simpa using he'
      exact ih u hu hp hq he hfiles hn

end Foldergram.Item

namespace Foldergram.FolderTree

variable {t t' : FolderTree}

theorem id_root_display (t : FolderTree) : t.root.display.id = rootId :=
  Item.id_display t.root

/-- An id belongs to one item only. -/
theorem WellFormed.eq_of_id_eq (h : t.WellFormed) {x y : Item} {chain chain' : List String}
    (hx : t.root.display.Place x chain) (hy : t.root.display.Place y chain') (he : x.id = y.id) :
    x = y := by
  have hd : (t.root.display.all.map Item.id).Nodup :=
    (Item.ids_display_perm t.root).nodup_iff.mpr h.ids_nodup
  exact List.inj_on_of_nodup_map hd hx.mem_all hy.mem_all he

/-- Well-formed trees of the same files are displayed alike. -/
theorem WellFormed.root_display_eq (h : t.WellFormed) (h' : t'.WellFormed)
    (hf : ∀ source, source ∈ t.files ↔ source ∈ t'.files) : t.root.display = t'.root.display := by
  rw [root, root, Item.display_folder, Item.display_folder]
  congr 1
  apply h.siblings.displayOrder_eq h'.siblings hf
  intro x hx y hy he hfiles
  exact (h.siblings.placed x hx).display_eq (h'.siblings.placed y hy) he hfiles

end Foldergram.FolderTree
