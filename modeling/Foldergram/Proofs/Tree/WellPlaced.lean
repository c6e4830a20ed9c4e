import Foldergram.Proofs.Path
import Foldergram.Proofs.Tree.Place
import Mathlib.Data.List.Nodup

/-!
Items that stand where their ids say. The segments of an id spell out the folders around the item, so
ids never repeat, and every folder below the root leads to a file.
-/

namespace Foldergram

open Foldergram.Path

namespace Item

variable {x y z : Item} {above : List String} {id name : String} {contents items : List Item}

def source? : Item → Option SourceFile
  | .file _ source => some source
  | .folder _ _ _ => none

/-- The files of an item, in the order in which they were found. -/
def files (x : Item) : List SourceFile :=
  x.all.filterMap source?

@[simp] theorem files_file (name : String) (source : SourceFile) :
    (file name source).files = [source] := rfl

@[simp] theorem files_folder (id name : String) (contents : List Item) :
    (folder id name contents).files = contents.flatMap files := by
  have hs : source? (folder id name contents) = none := rfl
  rw [files, all_folder, List.filterMap_cons_none hs, List.filterMap_flatMap]
  rfl

theorem mem_files {source : SourceFile} : source ∈ x.files ↔ ∃ name, .file name source ∈ x.all := by
  rw [files, List.mem_filterMap]
  constructor
  · rintro ⟨y, hy, hs⟩
    cases y with
    | file name s =>
      obtain rfl : s = source := by simpa [source?] using hs
      exact ⟨name, hy⟩
    | folder id name contents => simp [source?] at hs
  · rintro ⟨name, hy⟩
    exact ⟨_, hy, rfl⟩

/-- A file's id is the name at the end of the path `above`; so is a folder's, which holds something, and
the items in it stand one step further down and differ in their ids. -/
inductive WellPlaced : List String → Item → Prop
  | file {above : List String} {name : String} {source : SourceFile} :
      segments source.id = above ++ [name] → WellPlaced above (.file name source)
  | folder {above : List String} {id name : String} {contents : List Item} :
      segments id = above ++ [name] → contents ≠ [] → (contents.map Item.id).Nodup →
      (∀ x ∈ contents, WellPlaced (above ++ [name]) x) → WellPlaced above (.folder id name contents)

theorem WellPlaced.segments_id (h : x.WellPlaced above) : segments x.id = above ++ [x.name] := by
  cases h <;> assumption

theorem WellPlaced.isPrefix_of_mem_all (h : x.WellPlaced above) (hy : y ∈ x.all) :
    above ++ [x.name] <+: segments y.id := by
  induction x generalizing above with
  | file name source =>
    rw [all_file, List.mem_singleton] at hy
    subst hy
    exact h.segments_id ▸ List.prefix_rfl
  | folder id name contents ih =>
    rw [all_folder, List.mem_cons] at hy
    rcases hy with rfl | hy
    · exact h.segments_id ▸ List.prefix_rfl
    · obtain ⟨z, hz, hy⟩ := List.mem_flatMap.mp hy
      cases h with
      | folder _ _ _ hin => exact (List.prefix_append _ _).trans (ih z hz (hin z hz) hy)

/-- A file may be the item itself, and lies strictly deeper when the item is a folder. -/
theorem WellPlaced.isPrefix_of_mem_files {source : SourceFile} (h : x.WellPlaced above)
    (hs : source ∈ x.files) : above ++ [x.name] <+: segments source.id := by
  obtain ⟨name, hy⟩ := mem_files.mp hs
  exact h.isPrefix_of_mem_all hy

theorem WellPlaced.files_ne_nil (h : x.WellPlaced above) : x.files ≠ [] := by
  induction x generalizing above with
  | file name source => simp
  | folder id name contents ih =>
    cases h with
    | folder _ hne _ hin =>
      obtain ⟨y, hy⟩ := List.exists_mem_of_ne_nil _ hne
      obtain ⟨source, hs⟩ := List.exists_mem_of_ne_nil _ (ih y hy (hin y hy))
      rw [files_folder]
      exact List.ne_nil_of_mem (List.mem_flatMap.mpr ⟨y, hy, hs⟩)

/-- Items side by side under the path `above`. -/
structure Siblings (above : List String) (items : List Item) : Prop where
  distinct : (items.map Item.id).Nodup
  placed : ∀ x ∈ items, x.WellPlaced above

theorem WellPlaced.siblings (h : (Item.folder id name contents).WellPlaced above) :
    Siblings (segments id) contents := by
  cases h with
  | folder hid _ hd hin => exact ⟨hd, hid ▸ hin⟩

/-- What lies in a folder has a longer path than the folder. -/
theorem Siblings.id_not_mem_files (h : Siblings (segments id) items) :
    id ∉ (items.flatMap files).map (·.id) := by
  intro hm
  obtain ⟨source, hs, rfl⟩ := List.mem_map.mp hm
  obtain ⟨x, hx, hs⟩ := List.mem_flatMap.mp hs
  have hl := ((h.placed x hx).isPrefix_of_mem_files hs).length_le
  rw [List.length_append, List.length_singleton] at hl
  omega

theorem Siblings.eq_of_id_eq (h : Siblings above items) (hx : x ∈ items) (hy : y ∈ items)
    (he : x.id = y.id) : x = y :=
  List.inj_on_of_nodup_map h.distinct hx hy he

/-- Of the ids that are one step below a path, only one starts a given longer path. -/
theorem WellPlaced.id_eq_of_ahead (hx : x.WellPlaced above) (hid : segments id = above ++ [name])
    {path : List String} (hpx : above ++ [x.name] <+: path) (hp : segments id <+: path) : x.id = id := by
  have he : above ++ [x.name] = segments id :=
    (List.prefix_of_prefix_length_le hpx hp (by simp [hid])).eq_of_length (by simp [hid])
  exact segments_injective (hx.segments_id.trans he)

/-- Two items under one path whose names start a common path from there are of the same id. -/
theorem WellPlaced.id_eq_of_isPrefix (hx : x.WellPlaced above) (hy : y.WellPlaced above)
    {path : List String} (hpx : above ++ [x.name] <+: path) (hpy : above ++ [y.name] <+: path) :
    x.id = y.id :=
  hx.id_eq_of_ahead hy.segments_id hpx (hy.segments_id ▸ hpy)

/-- What has its path through `id` lies in the sibling of that id. -/
theorem Siblings.mem_flatMap_iff {ids : Item → List String} {p : String} (h : Siblings above items)
    (hids : ∀ x, ids x ⊆ x.all.map Item.id) (hid : segments id = above ++ [name])
    (hp : segments id <+: segments p) :
    p ∈ items.flatMap ids ↔ ∃ x ∈ items, x.id = id ∧ p ∈ ids x := by
  rw [List.mem_flatMap]
  constructor
  · rintro ⟨x, hx, hm⟩
    obtain ⟨y, hy, rfl⟩ := List.mem_map.mp (hids x hm)
    have hy' := (h.placed x hx).isPrefix_of_mem_all hy
    exact ⟨x, hx, (h.placed x hx).id_eq_of_ahead hid hy' hp, hm⟩
  · rintro ⟨x, hx, -, hm⟩
    exact ⟨x, hx, hm⟩

theorem WellPlaced.id_ne_of_mem_contents (h : (Item.folder id name contents).WellPlaced above)
    (hx : x ∈ contents) (hy : y ∈ x.all) : y.id ≠ id := by
  intro he
  have hp := (h.siblings.placed x hx).isPrefix_of_mem_all hy
  have hl := hp.length_le
  rw [he, List.length_append, List.length_singleton] at hl
  omega

theorem Siblings.disjoint (h : Siblings above items) (hx : x ∈ items) (hy : y ∈ items) (hne : x ≠ y) :
    List.Disjoint (x.all.map Item.id) (y.all.map Item.id) := by
  intro i hix hiy
  obtain ⟨u, hu, rfl⟩ := List.mem_map.mp hix
  obtain ⟨v, hv, he⟩ := List.mem_map.mp hiy
  have hpx := (h.placed x hx).isPrefix_of_mem_all hu
  have hpy := (h.placed y hy).isPrefix_of_mem_all hv
  rw [he] at hpy
  exact hne (h.eq_of_id_eq hx hy ((h.placed x hx).id_eq_of_isPrefix (h.placed y hy) hpx hpy))

theorem Siblings.ids_nodup (h : Siblings above items)
    (hin : ∀ x ∈ items, (x.all.map Item.id).Nodup) :
    ((items.flatMap all).map Item.id).Nodup := by
  rw [List.map_flatMap, List.nodup_flatMap]
  refine ⟨hin, ?_⟩
  have hnd : items.Nodup := h.distinct.of_map
  exact hnd.pairwise_of_forall_ne (fun x hx y hy hne => h.disjoint hx hy hne)

theorem WellPlaced.ids_nodup (h : x.WellPlaced above) : (x.all.map Item.id).Nodup := by
  induction x generalizing above with
  | file name source => simp
  | folder id name contents ih =>
    have hs := h.siblings
    rw [all_folder, List.map_cons, List.nodup_cons]
    refine ⟨?_, hs.ids_nodup (fun x hx => ih x hx (hs.placed x hx))⟩
    intro hm
    obtain ⟨y, hy, he⟩ := List.mem_map.mp hm
    obtain ⟨x, hx, hy⟩ := List.mem_flatMap.mp hy
    exact h.id_ne_of_mem_contents hx hy he

end Item

namespace FolderTree

variable {t : FolderTree} {x y : Item} {chain chain' : List String}

/-- The files of the tree. -/
def files (t : FolderTree) : List SourceFile :=
  t.contents.flatMap Item.files

theorem items_eq (t : FolderTree) : t.items = t.root :: t.contents.flatMap Item.all :=
  Item.all_folder ..

/-- What every built tree satisfies. -/
structure WellFormed (t : FolderTree) : Prop where
  siblings : Item.Siblings [] t.contents
  rootFree : ∀ x ∈ t.contents, x.id ≠ rootId
  created : t.created.Perm (t.items.map Item.id)

theorem WellFormed.id_ne_rootId (h : t.WellFormed) (hx : x ∈ t.contents) (hy : y ∈ x.all) :
    y.id ≠ rootId := by
  intro he
  have hp := (h.siblings.placed x hx).isPrefix_of_mem_all hy
  have hroot : segments rootId = [rootId] := segments_of_no_slash (by decide)
  rw [he, hroot, List.nil_append] at hp
  have hname : [x.name] = [rootId] := hp.eq_of_length rfl
  apply h.rootFree x hx
  apply segments_injective
  rw [(h.siblings.placed x hx).segments_id, List.nil_append, hname, hroot]

theorem WellFormed.ids_nodup (h : t.WellFormed) : (t.items.map Item.id).Nodup := by
  rw [items_eq, List.map_cons, List.nodup_cons]
  refine ⟨?_, h.siblings.ids_nodup (fun x hx => (h.siblings.placed x hx).ids_nodup)⟩
  intro hm
  obtain ⟨y, hy, he⟩ := List.mem_map.mp hm
  obtain ⟨x, hx, hy⟩ := List.mem_flatMap.mp hy
  exact h.id_ne_rootId hx hy he

end FolderTree

end Foldergram
