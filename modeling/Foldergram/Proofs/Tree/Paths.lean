import Foldergram.Proofs.Tree.Folders
import Mathlib.Data.List.Dedup

/-!
What a tree holds, told by the paths of its files. Beside the root and the files there is a folder wherever a
path goes on with a slash, and the tree is as deep as its longest path.
-/

namespace Foldergram

open Foldergram.Path

/-- The paths at which a path goes on, each once. -/
def folderPaths (files : List SourceFile) : List String :=
  (files.flatMap fun file => prefixesOf (folder? file.id)).dedup

theorem mem_folderPaths {files : List SourceFile} {p : String} :
    p ∈ folderPaths files ↔ ∃ file ∈ files, (p ++ "/").toList <+: file.id.toList := by
  rw [folderPaths, List.mem_dedup, List.mem_flatMap]
  simp only [mem_prefixesOf_folder?]

/-- An id that the files make known: the root's, that of a file, or a path at which a file's path goes on. -/
def SourceGraph.Knows (g : SourceGraph) (id : String) : Prop :=
  id = rootId ∨ ∃ file ∈ g.files, file.id = id ∨ (id ++ "/").toList <+: file.id.toList

instance (g : SourceGraph) (id : String) : Decidable (g.Knows id) :=
  inferInstanceAs (Decidable (_ ∨ _))

theorem getD_max?_le_iff {numbers : List Nat} {bound : Nat} :
    numbers.max?.getD 0 ≤ bound ↔ ∀ k ∈ numbers, k ≤ bound := by
  cases h : numbers.max? with
  | none =>
    rw [List.max?_eq_none_iff] at h
    simp [h]
  | some k => exact List.max?_le_iff h

namespace FolderTree

variable {t : FolderTree} {source : SourceFile} {id : String} {n : Nat}

theorem mem_files : source ∈ t.files ↔ ∃ name, .file name source ∈ t.items := by
  rw [files, ← Item.files_folder rootId rootName]
  exact Item.mem_files

theorem root_mem_items (t : FolderTree) : t.root ∈ t.items :=
  Item.mem_all_self t.root

namespace WellFormed

/-- A file and a folder never have the same id. -/
theorem not_hasFolder_of_mem_files (h : t.WellFormed) (hs : source ∈ t.files) :
    ¬ t.hasFolder source.id = true := by
  intro hf
  obtain ⟨name, hm⟩ := mem_files.mp hs
  obtain ⟨x, hx, he, hfolder⟩ := h.hasFolder_iff.mp hf
  rw [List.inj_on_of_nodup_map h.ids_nodup hx hm he] at hfolder
  cases hfolder

theorem hasFolder_rootId (h : t.WellFormed) : t.hasFolder rootId = true :=
  h.hasFolder_iff.mpr ⟨t.root, t.root_mem_items, rfl, rfl⟩

theorem id_ne_rootId_of_mem_files (h : t.WellFormed) (hs : source ∈ t.files) : source.id ≠ rootId := by
  intro he
  exact h.not_hasFolder_of_mem_files hs (he ▸ h.hasFolder_rootId)

/-- The way up from a file passes the folders that its path names, and the root. -/
theorem mem_ancestors_file_iff (h : t.WellFormed) (hs : source ∈ t.files) :
    id ∈ t.ancestors source.id ↔ id = rootId ∨ (id ++ "/").toList <+: source.id.toList := by
  obtain ⟨name, hm⟩ := mem_files.mp hs
  obtain ⟨-, ha⟩ := h.place_of_ne hm (h.id_ne_rootId_of_mem_files hs)
  rw [Item.id_file] at ha
  rw [ha, List.mem_append, List.mem_reverse, List.mem_singleton, mem_prefixesOf_folder?, or_comm]

/-- No path goes on below the root's own id: the way up would come to the root twice. -/
theorem not_slash_rootId (h : t.WellFormed) (hs : source ∈ t.files) :
    ¬ (rootId ++ "/").toList <+: source.id.toList := by
  intro hslash
  obtain ⟨name, hm⟩ := mem_files.mp hs
  obtain ⟨-, ha⟩ := h.place_of_ne hm (h.id_ne_rootId_of_mem_files hs)
  obtain ⟨inner, outer, he⟩ := List.append_of_mem (List.mem_reverse.mpr (mem_prefixesOf_folder?.mpr hslash))
  rw [Item.id_file, he, List.append_assoc, List.cons_append] at ha
  have hup := (h.ancestors_outwards (List.mem_map_of_mem hm) ha).2
  rw [h.ancestors_rootId] at hup
  simp at hup

theorem hasFolder_iff_path (h : t.WellFormed) : t.hasFolder id = true ↔
    id = rootId ∨ ∃ file ∈ t.files, (id ++ "/").toList <+: file.id.toList := by
  constructor
  · intro hf
    obtain ⟨x, hx, rfl, -⟩ := h.hasFolder_iff.mp hf
    by_cases hne : x.id = rootId
    · exact Or.inl hne
    · have hplaced := (h.place_of_ne hx hne).1
      obtain ⟨file, hfile⟩ := List.exists_mem_of_ne_nil _ hplaced.files_ne_nil
      obtain ⟨name, hm⟩ := Item.mem_files.mp hfile
      have hmt : file ∈ t.files := mem_files.mpr ⟨name, Item.mem_all_trans hm hx⟩
      have hpath := hplaced.isPrefix_of_mem_files hfile
      rw [← hplaced.segments_id] at hpath
      rcases isPrefix_segments_iff.mp hpath with he | hslash
      · exact absurd (he ▸ hf) (h.not_hasFolder_of_mem_files hmt)
      · exact Or.inr ⟨file, hmt, hslash⟩
  · rintro (rfl | ⟨file, hfile, hslash⟩)
    · exact h.hasFolder_rootId
    · obtain ⟨name, hm⟩ := mem_files.mp hfile
      exact h.hasFolder_of_mem_ancestors (List.mem_map_of_mem hm)
        ((h.mem_ancestors_file_iff hfile).mpr (Or.inr hslash))

theorem mem_ids_iff (h : t.WellFormed) :
    id ∈ t.items.map Item.id ↔ t.hasFolder id = true ∨ id ∈ t.files.map (·.id) := by
  rw [h.hasFolder_iff, List.mem_map, List.mem_map]
  constructor
  · rintro ⟨x, hx, rfl⟩
    cases x with
    | file name source => exact Or.inr ⟨source, mem_files.mpr ⟨name, hx⟩, rfl⟩
    | folder id name contents => exact Or.inl ⟨_, hx, rfl, rfl⟩
  · rintro (⟨x, hx, he, -⟩ | ⟨source, hs, rfl⟩)
    · exact ⟨x, hx, he⟩
    · obtain ⟨name, hm⟩ := mem_files.mp hs
      exact ⟨_, hm, rfl⟩

/-- The ids in a tree are the root's, those of the files, and the paths at which one of these goes on. -/
theorem mem_ids_iff_path (h : t.WellFormed) : id ∈ t.items.map Item.id ↔
    id = rootId ∨ ∃ file ∈ t.files, file.id = id ∨ (id ++ "/").toList <+: file.id.toList := by
  rw [h.mem_ids_iff, h.hasFolder_iff_path, or_assoc, List.mem_map, ← exists_or]
  simp only [← and_or_left, or_comm]

theorem knows_iff {g : SourceGraph} (h : t.WellFormed) (hp : t.files.Perm g.files) :
    g.Knows id ↔ id ∈ t.items.map Item.id := by
  rw [h.mem_ids_iff_path, SourceGraph.Knows]
  simp only [hp.mem_iff]

end WellFormed

theorem fileCount_eq (t : FolderTree) : t.fileCount = t.files.length := by
  have hfiles : t.files = t.items.filterMap Item.source? := (Item.files_folder ..).symm
  have hsource : ∀ x : Item, (Item.source? x).isSome = !x.isFolder := by
    intro x
    cases x <;> rfl
  rw [hfiles, List.length_filterMap_eq_countP, fileCount]
  simp only [hsource]

namespace WellFormed

/-- There are as many folders below the root as paths that go on with a slash. -/
theorem folderCount_eq (h : t.WellFormed) : t.folderCount = (folderPaths t.files).length + 1 := by
  have hroot : rootId ∉ folderPaths t.files := by
    intro hm
    obtain ⟨file, hfile, hslash⟩ := mem_folderPaths.mp hm
    exact h.not_slash_rootId hfile hslash
  have hfolders : ((t.items.filter Item.isFolder).map Item.id).Perm (rootId :: folderPaths t.files) := by
    rw [List.perm_ext_iff_of_nodup ((List.filter_sublist.map Item.id).nodup h.ids_nodup)
      (List.nodup_cons.mpr ⟨hroot, List.nodup_dedup _⟩)]
    intro id
    rw [List.mem_cons, mem_folderPaths, ← h.hasFolder_iff_path, h.hasFolder_iff, List.mem_map]
    simp only [List.mem_filter, and_assoc, and_comm (a := _ = id)]
  have hlength := hfolders.length_eq
  rwa [List.length_map, ← List.countP_eq_length_filter] at hlength

/-- The folder that holds a file lies one step less deep than the path of the file is long. -/
theorem exists_folder_around (h : t.WellFormed) (hs : source ∈ t.files) :
    ∃ x d, (x, d) ∈ t.folders ∧ x.contents ≠ [] ∧ (segments source.id).length = d + 1 := by
  obtain ⟨name, hm⟩ := mem_files.mp hs
  have hplace : t.root.Place (.file name source) (t.ancestors source.id) := h.mem_items_iff.mp hm
  have hlength : (t.ancestors source.id).length = depthOf source.id :=
    h.length_ancestors (List.mem_map_of_mem hm)
  rw [depthOf, if_neg (h.id_ne_rootId_of_mem_files hs)] at hlength
  cases ha : t.ancestors source.id with
  | nil =>
    rw [ha] at hplace
    cases hplace.eq_top
  | cons p chain =>
    rw [ha] at hplace hlength
    obtain ⟨name', contents, hfolder, hin⟩ := hplace.out
    exact ⟨.folder p name' contents, chain.length,
      Item.mem_folders_iff.mpr ⟨rfl, chain, hfolder, (Nat.zero_add _).symm⟩,
      List.ne_nil_of_mem hin, hlength.symm⟩

/-- A folder that holds something has a file with a longer path; only the root can be empty. -/
theorem exists_file_below (h : t.WellFormed) {x : Item} {d : Nat} (hx : (x, d) ∈ t.folders)
    (hne : x.contents ≠ [] ∨ 0 < d) : ∃ file ∈ t.files, d < (segments file.id).length := by
  obtain ⟨hm, hfolder, rfl⟩ := h.mem_folders_iff.mp hx
  rcases h.hasFolder_iff_path.mp (h.hasFolder_iff.mpr ⟨x, hm, rfl, hfolder⟩) with he | ⟨file, hfile, hslash⟩
  · obtain rfl := List.inj_on_of_nodup_map h.ids_nodup hm t.root_mem_items he
    have hdepth : depthOf t.root.id = 0 := rfl
    have hcontents : t.contents ≠ [] := hne.resolve_right (by omega)
    obtain ⟨y, hy⟩ := List.exists_mem_of_ne_nil _ hcontents
    obtain ⟨file, hfile⟩ := List.exists_mem_of_ne_nil _ (h.siblings.placed y hy).files_ne_nil
    exact ⟨file, List.mem_flatMap.mpr ⟨y, hy, hfile⟩, List.length_pos_of_ne_nil (segments_ne_nil _)⟩
  · have hlt := length_segments_of_slash hslash
    refine ⟨file, hfile, ?_⟩
    unfold depthOf
    split <;> omega

theorem maxDepth_le_iff (h : t.WellFormed) :
    t.maxDepth ≤ n ↔ ∀ file ∈ t.files, (segments file.id).length ≤ n := by
  rw [maxDepth, List.foldl_max, Nat.zero_max, getD_max?_le_iff, List.forall_mem_map]
  constructor
  · intro hall file hfile
    obtain ⟨x, d, hx, hne, hlength⟩ := h.exists_folder_around hfile
    have hle := hall (x, d) hx
    simp only [List.isEmpty_iff, if_neg hne] at hle
    omega
  · rintro hall ⟨x, d⟩ hx
    by_cases hne : x.contents ≠ [] ∨ 0 < d
    · obtain ⟨file, hfile, hlt⟩ := h.exists_file_below hx hne
      have hle := hall file hfile
      simp only
      split <;> omega
    · obtain ⟨hempty, hd⟩ := not_or.mp hne
      simp only [not_not.mp hempty, List.isEmpty_nil, if_true]
      omega

end WellFormed

end FolderTree

end Foldergram
