import Foldergram.Projection.Visibility
import Foldergram.Proofs.Folding
import Foldergram.Proofs.Tree.Ancestry
import Foldergram.Proofs.Tree.Display
import Mathlib.Data.List.Flatten

/-!
Trees that are displayed alike. They differ in the order in which their items were found, and in nothing
that can be asked about an id.
-/

namespace Foldergram

namespace Item

variable {x : Item}

theorem foldersOf_eq_flatMap (depth : Nat) (items : List Item) :
    foldersOf depth items = items.flatMap (folders depth) := by
  induction items with
  | nil => rfl
  | cons x items ih => simp [foldersOf, ih]

@[simp] theorem folders_file (depth : Nat) (name : String) (source : SourceFile) :
    (file name source).folders depth = [] := rfl

@[simp] theorem folders_folder (depth : Nat) (id name : String) (contents : List Item) :
    (folder id name contents).folders depth =
      (.folder id name contents, depth) :: contents.flatMap (folders (depth + 1)) := by
  rw [folders, foldersOf_eq_flatMap]

theorem folders_display_perm (depth : Nat) (x : Item) :
    (x.display.folders depth).Perm ((x.folders depth).map fun p => (p.1.display, p.2)) := by
  induction x generalizing depth with
  | file name source => simp
  | folder id name contents ih =>
    simp only [display_folder, folders_folder, List.map_cons, List.map_flatMap]
    refine List.Perm.cons _ (((displayOrder_perm _).flatMap_right _).trans ?_)
    rw [List.flatMap_map]
    exact List.Perm.flatMap_left _ (fun x hx => ih x hx (depth + 1))

theorem folders_sublist (depth : Nat) (x : Item) : ((x.folders depth).map Prod.fst).Sublist x.all := by
  induction x generalizing depth with
  | file name source => simp
  | folder id name contents ih =>
    rw [folders_folder, all_folder, List.map_cons, List.map_flatMap]
    exact List.Sublist.cons_cons _
      (List.Sublist.flatMap_right contents (fun x hx => ih x hx (depth + 1)))

theorem isEmpty_contents_display (x : Item) : x.display.contents.isEmpty = x.contents.isEmpty := by
  cases x with
  | file name source => rfl
  | folder id name contents =>
    have hp := (displayOrder_perm (contents.map display)).isEmpty_eq
    simpa [Item.contents] using hp

end Item

namespace FolderTree

variable {t t' : FolderTree} {id : String}

theorem ids_folders_sublist (t : FolderTree) :
    (t.folders.map (·.1.id)).Sublist (t.items.map Item.id) := by
  have hs := (Item.folders_sublist 0 t.root).map Item.id
  rwa [List.map_map] at hs

theorem WellFormed.nodup_folders (h : t.WellFormed) : (t.folders.map (·.1.id)).Nodup :=
  t.ids_folders_sublist.nodup h.ids_nodup

/-- Well-formed trees that look the same. -/
structure Alike (t t' : FolderTree) : Prop where
  left : t.WellFormed
  right : t'.WellFormed
  display : t.root.display = t'.root.display

namespace Alike

theorem items_perm (h : t.Alike t') : (t.items.map Item.display).Perm (t'.items.map Item.display) := by
  have hp := (Item.all_display_perm t.root).symm
  rw [h.display] at hp
  exact hp.trans (Item.all_display_perm t'.root)

theorem folders_perm (h : t.Alike t') : (t.folders.map fun p => (p.1.display, p.2)).Perm
    (t'.folders.map fun p => (p.1.display, p.2)) := by
  have hp := (Item.folders_display_perm 0 t.root).symm
  rw [h.display] at hp
  exact hp.trans (Item.folders_display_perm 0 t'.root)

theorem mem_items (h : t.Alike t') : id ∈ t.items.map Item.id ↔ id ∈ t'.items.map Item.id := by
  have hp := h.items_perm.map Item.id
  rw [Item.map_id_display, Item.map_id_display] at hp
  exact hp.mem_iff

theorem countP_items (h : t.Alike t') {p : Item → Bool} (hp : ∀ x, p x.display = p x) :
    t.items.countP p = t'.items.countP p := by
  have hc := h.items_perm.countP_eq p
  simpa only [List.countP_map, Function.comp_def, hp] using hc

theorem ancestors_eq (h : t.Alike t') (hid : id ∈ t.items.map Item.id) :
    t.ancestors id = t'.ancestors id := by
  obtain ⟨x, rfl, hx⟩ := h.left.exists_place hid
  have hd := hx.display
  rw [h.display] at hd
  obtain ⟨y, hy, he⟩ := hd.of_display
  have hi : x.id = y.id := by rw [← Item.id_display x, he, Item.id_display]
  rw [hi, h.right.ancestors_eq hy, ← hi]

theorem visibleAncestor_eq (h : t.Alike t') (hid : id ∈ t.items.map Item.id) (f : Folding) :
    visibleAncestor t.upwardLinks f id = visibleAncestor t'.upwardLinks f id := by
  have ha : climb t.upwardLinks id = climb t'.upwardLinks id := h.ancestors_eq hid
  rw [visibleAncestor, visibleAncestor, ha]

theorem maxDepth_eq (h : t.Alike t') : t.maxDepth = t'.maxDepth := by
  have hp := h.folders_perm.map fun p : Item × Nat => if p.1.contents.isEmpty then p.2 else p.2 + 1
  simp only [List.map_map, Function.comp_def, Item.isEmpty_contents_display] at hp
  exact hp.foldl_eq 0

theorem openTo_eq (h : t.Alike t') (depth : Nat) : Folding.openTo t depth = Folding.openTo t' depth := by
  have hp := h.folders_perm.map fun p : Item × Nat => (p.1.id, decide (p.2 < depth))
  simp only [List.map_map, Function.comp_def, Item.id_display] at hp
  refine Folding.ofEntries_eq_of_perm hp ?_
  rw [List.map_map]
  exact h.left.nodup_folders

end Alike

theorem WellFormed.alike (h : t.WellFormed) (h' : t'.WellFormed)
    (hf : ∀ source, source ∈ t.files ↔ source ∈ t'.files) : t.Alike t' :=
  ⟨h, h', h.root_display_eq h' hf⟩

end FolderTree

end Foldergram
