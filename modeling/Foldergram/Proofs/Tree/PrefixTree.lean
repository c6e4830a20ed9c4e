import Foldergram.Proofs.Tree.Creation
import Foldergram.Proofs.Tree.Lookup

/-!
A built tree is the prefix tree of the ids of its files. Where an item stands, what it is and when it was
created can be read off the ids, and the different ways to look at containment agree.
-/

namespace Foldergram

open Foldergram.Path

/-- A part of a list without repetitions is picked out by its members. -/
theorem eq_filter_of_sublist {l l' : List String} {keep : String → Bool} (hs : l.Sublist l')
    (hd : l'.Nodup) (hm : ∀ a ∈ l', a ∈ l ↔ keep a = true) : l = l'.filter keep := by
  have hkept : l.filter keep = l := List.filter_eq_self.mpr fun a ha => (hm a (hs.subset ha)).mp ha
  have hsub : l.Sublist (l'.filter keep) := hkept ▸ hs.filter keep
  have hperm : l.Perm (l'.filter keep) := by
    rw [List.perm_ext_iff_of_nodup (hs.nodup hd) (hd.filter keep)]
    intro a
    rw [List.mem_filter]
    constructor
    · exact fun ha => ⟨hs.subset ha, (hm a (hs.subset ha)).mp ha⟩
    · exact fun ⟨ha, hk⟩ => (hm a ha).mpr hk
  exact hsub.eq_of_length hperm.length_eq

namespace FolderTree

variable {t : FolderTree} {x : Item} {chain : List String}

/-- An item below the root stands where its id says: the folders around it are the prefixes of its path,
and then the root. By induction on the place. -/
theorem WellFormed.place_cases (h : t.WellFormed) (hp : t.root.Place x chain) :
    (x = t.root ∧ chain = []) ∨ x.WellPlaced (segmentsOf (folder? x.id)) ∧
      chain = (prefixesOf (folder? x.id)).reverse ++ [rootId] := by
  induction hp with
  | here => exact Or.inl ⟨rfl, rfl⟩
  | @inside x id name contents chain _ hx ih =>
    right
    rcases ih with ⟨hroot, rfl⟩ | ⟨hfolder, rfl⟩
    · obtain ⟨rfl, rfl, rfl⟩ : id = rootId ∧ name = rootName ∧ contents = t.contents := by
        simpa [root] using hroot
      have hx' := h.siblings.placed x hx
      have hseg : segments x.id = segmentsOf none ++ [x.name] := hx'.segments_id
      have hf : folder? x.id = none := folder?_eq hseg
      rw [hf]
      exact ⟨hx', rfl⟩
    · have hx' := hfolder.siblings.placed x hx
      have hseg : segments x.id = segmentsOf (some id) ++ [x.name] := hx'.segments_id
      have hf : folder? x.id = some id := folder?_eq hseg
      rw [hf]
      refine ⟨hx', ?_⟩
      rw [prefixesOf, prefixes_eq id, List.reverse_append, List.reverse_singleton, Item.id_folder]
      rfl

theorem WellFormed.mem_items_iff (h : t.WellFormed) :
    x ∈ t.items ↔ t.root.Place x (t.ancestors x.id) := by
  constructor
  · intro hx
    obtain ⟨chain, hp⟩ := Item.mem_all_iff.mp hx
    exact h.ancestors_eq hp ▸ hp
  · exact fun hp => hp.mem_all

theorem WellFormed.place_of_ne (h : t.WellFormed) (hx : x ∈ t.items) (hne : x.id ≠ rootId) :
    x.WellPlaced (segmentsOf (folder? x.id)) ∧
      t.ancestors x.id = (prefixesOf (folder? x.id)).reverse ++ [rootId] := by
  rcases h.place_cases (h.mem_items_iff.mp hx) with ⟨rfl, -⟩ | hp
  · exact absurd rfl hne
  · exact hp

end FolderTree

/-- A tree that is determined by the ids of its files. -/
structure PrefixTree (files : List SourceFile) (t : FolderTree) : Prop where
  /-- Behind the root, path after path brings the prefixes that are new, the shortest first. -/
  created : t.created = rootId :: (files.flatMap fun file => prefixes file.id).eraseDups
  /-- What goes down from the root comes to each created item once. -/
  items : (t.items.map Item.id).Perm t.created
  distinct : (t.items.map Item.id).Nodup
  /-- An id leads to the only item that has it. -/
  get? : ∀ id x, t.get? id = some x ↔ x ∈ t.items ∧ x.id = id
  /-- The given files are files of the tree, as they were given. -/
  file : ∀ source ∈ files, ∃ name, t.get? source.id = some (.file name source)
  /-- Everything else is a folder. -/
  folder : ∀ x ∈ t.items, x.id ∉ files.map (·.id) → x.isFolder = true
  name : ∀ x ∈ t.items, x.id ≠ rootId → (segments x.id).getLast? = some x.name
  /-- One link leads up from an item, to the folder of its path, or to the root from the first segment. -/
  parent : ∀ x ∈ t.items, x.id ≠ rootId →
    t.upwardLinks.filter (·.item = x.id) = [⟨x.id, (folder? x.id).getD rootId⟩]
  top : t.parent? rootId = none
  /-- The folder found from an item is the one that the links give. -/
  links : ∀ id p, t.parent? id = some p ↔ ⟨id, p⟩ ∈ t.upwardLinks
  /-- A folder holds the items whose parent it is, in the order of creation. -/
  contents : ∀ x ∈ t.items, x.contents.map Item.id = t.created.filter (t.parent? · = some x.id)
  /-- No folder but the root can be without a file. -/
  inhabited : ∀ x ∈ t.items, x.isFolder = true → x.id ≠ rootId → x.files ≠ []
  /-- There is one way from the root to an item, and the way up from the item takes it backwards. -/
  place : ∀ x ∈ t.items, ∀ chain, t.root.Place x chain ↔ chain = t.ancestors x.id
  /-- The way up passes the prefixes of the path and ends at the root. -/
  ancestors : ∀ x ∈ t.items, x.id ≠ rootId →
    t.ancestors x.id = (prefixesOf (folder? x.id)).reverse ++ [rootId]

section

variable {t : FolderTree} {files : List SourceFile} {x : Item}

theorem FolderTree.WellFormed.parent_link (h : t.WellFormed) (hx : x ∈ t.items) (hne : x.id ≠ rootId) :
    ⟨x.id, (folder? x.id).getD rootId⟩ ∈ t.upwardLinks := by
  obtain ⟨-, ha⟩ := h.place_of_ne hx hne
  rw [← h.parent?_eq_some_iff, ← FolderTree.head?_ancestors, ha]
  cases hf : folder? x.id with
  | none => rfl
  | some f => simp [prefixesOf, prefixes_eq f]

theorem FolderTree.WellFormed.contents_eq (h : t.WellFormed) (hseq : Sequenced t.created t.contents)
    (hx : x ∈ t.items) : x.contents.map Item.id = t.created.filter (t.parent? · = some x.id) := by
  apply eq_filter_of_sublist
  · rw [FolderTree.items_eq, List.mem_cons] at hx
    rcases hx with rfl | hx
    · exact hseq.1
    · exact hseq.2 x hx
  · exact h.created.nodup_iff.mpr h.ids_nodup
  · intro id _
    rw [h.mem_contents_iff hx, decide_eq_true_iff]

/-- A tree that has been built is the prefix tree of the ids of its files. -/
theorem build_prefixTree (hb : FolderTree.build files = .ok t) : PrefixTree files t := by
  obtain ⟨hwf, hfiles⟩ := FolderTree.wellFormed_build hb
  obtain ⟨hcreated, hseq⟩ := FolderTree.build_recorded hb
  have hmem : ∀ source, source ∈ files ↔ ∃ name, .file name source ∈ t.items := by
    intro source
    rw [← hfiles.mem_iff, FolderTree.files, ← Item.files_folder rootId rootName]
    exact Item.mem_files
  refine ⟨hcreated, hwf.created.symm, hwf.ids_nodup, fun id x => hwf.get?_eq_some_iff, ?_, ?_, ?_, ?_, ?_,
    fun id p => hwf.parent?_eq_some_iff, fun x hx => hwf.contents_eq hseq hx, ?_, ?_,
    fun x hx hne => (hwf.place_of_ne hx hne).2⟩
  · intro source hs
    obtain ⟨name, hm⟩ := (hmem source).mp hs
    exact ⟨name, hwf.get?_eq_some_iff.mpr ⟨hm, rfl⟩⟩
  · intro x hx hnot
    cases x with
    | file name source => exact absurd (List.mem_map_of_mem ((hmem source).mpr ⟨name, hx⟩)) hnot
    | folder id name contents => rfl
  · intro x hx hne
    rw [(hwf.place_of_ne hx hne).1.segments_id, List.getLast?_concat]
  · intro x hx hne
    exact filter_key_eq_singleton hwf.link_items_nodup (hwf.parent_link hx hne)
  · rw [← FolderTree.head?_ancestors, hwf.ancestors_rootId]
    rfl
  · intro x hx _ hne
    exact (hwf.place_of_ne hx hne).1.files_ne_nil
  · intro x hx chain
    constructor
    · exact fun hp => (hwf.ancestors_eq hp).symm
    · rintro rfl
      exact hwf.mem_items_iff.mp hx

theorem build_prefixTree_empty_segments : ∃ t,
    FolderTree.build [⟨"a//b", "", 0⟩, ⟨"/", "", 0⟩, ⟨"a/c", "", 1⟩] = .ok t ∧
    t.created = ["root", "a", "a/", "a//b", "", "/", "a/c"] ∧
    PrefixTree [⟨"a//b", "", 0⟩, ⟨"/", "", 0⟩, ⟨"a/c", "", 1⟩] t :=
  ⟨_, rfl, rfl, build_prefixTree rfl⟩

end

end Foldergram
