import Foldergram.Proofs.Folding
import Foldergram.Proofs.Projection.Routing
import Foldergram.Proofs.Tree.Folders

/-!
Folders open to a depth. Every folder has its entry, and what is visible are the items that lie no deeper than
the folders are open.
-/

namespace Foldergram

variable {t : FolderTree} {c : Canvas} {id : String} {flag : Bool} {n : Nat} {files : List SourceFile}

namespace FolderTree.WellFormed

theorem hasFolder_iff_mem_folders (h : t.WellFormed) {d : Nat} :
    (∃ x, (x, d) ∈ t.folders ∧ x.id = id) ↔ t.hasFolder id = true ∧ d = depthOf id := by
  rw [h.hasFolder_iff]
  simp only [h.mem_folders_iff]
  constructor
  · rintro ⟨x, ⟨hx, hfolder, rfl⟩, rfl⟩
    exact ⟨⟨x, hx, rfl, hfolder⟩, rfl⟩
  · rintro ⟨⟨x, hx, rfl, hfolder⟩, rfl⟩
    exact ⟨x, ⟨hx, hfolder, rfl⟩, rfl⟩

theorem get?_openTo (h : t.WellFormed) : (Folding.openTo t n).get? id = some flag ↔
    t.hasFolder id = true ∧ flag = decide (depthOf id < n) := by
  have hd : ((t.folders.map fun p => (p.1.id, decide (p.2 < n))).map Prod.fst).Nodup := by
    rw [List.map_map]
    exact h.nodup_folders
  rw [Folding.openTo, Folding.get?_ofEntries hd, List.mem_map]
  constructor
  · rintro ⟨⟨x, d⟩, hm, he⟩
    obtain ⟨rfl, rfl⟩ := Prod.mk.inj he
    obtain ⟨hfolder, rfl⟩ := h.hasFolder_iff_mem_folders.mp ⟨x, hm, rfl⟩
    exact ⟨hfolder, rfl⟩
  · rintro ⟨hfolder, rfl⟩
    obtain ⟨x, hm, rfl⟩ := h.hasFolder_iff_mem_folders.mpr ⟨hfolder, rfl⟩
    exact ⟨(x, depthOf x.id), hm, rfl⟩

theorem isSome_get?_openTo (h : t.WellFormed) (n : Nat) (id : String) :
    ((Folding.openTo t n).get? id).isSome = t.hasFolder id := by
  rw [Bool.eq_iff_iff, Option.isSome_iff_exists]
  simp only [h.get?_openTo, exists_and_left, exists_eq, and_true]

theorem isExpanded_openTo (h : t.WellFormed) (hfolder : t.hasFolder id = true) :
    (Folding.openTo t n).isExpanded id = true ↔ depthOf id < n := by
  have hget := (h.get?_openTo (n := n)).mpr ⟨hfolder, rfl⟩
  rw [Folding.isExpanded, Folding.isCollapsed, hget]
  by_cases hn : depthOf id < n <;> simp [hn]

/-- The folders around an item lie less deep than the item, the innermost by one. -/
theorem shows_openTo_iff (h : t.WellFormed) : t.Shows (Folding.openTo t n) id ↔
    id ∈ t.items.map Item.id ∧ depthOf id ≤ n := by
  refine and_congr_right fun hid => ?_
  have hopen : ∀ p ∈ t.ancestors id, (Folding.openTo t n).isExpanded p = true ↔ depthOf p < n :=
    fun p hp => h.isExpanded_openTo (h.hasFolder_of_mem_ancestors hid hp)
  rw [← h.length_ancestors hid]
  constructor
  · intro hall
    cases ha : t.ancestors id with
    | nil => exact Nat.zero_le n
    | cons p outer =>
      have hp : p ∈ t.ancestors id := by simp [ha]
      have hn := (hopen p hp).mp (hall p hp)
      have ha' : t.ancestors id = [] ++ p :: outer := ha
      obtain ⟨hpid, houter⟩ := h.ancestors_outwards hid ha'
      rw [← h.length_ancestors hpid, houter] at hn
      rw [List.length_cons]
      omega
  · intro hn p hp
    have hlt := h.length_ancestors_lt hid hp
    obtain ⟨x, hx, hpid, -⟩ := h.hasFolder_iff.mp (h.hasFolder_of_mem_ancestors hid hp)
    rw [h.length_ancestors (hpid ▸ List.mem_map_of_mem hx)] at hlt
    exact (hopen p hp).mpr (by omega)

end FolderTree.WellFormed

/-- Opening to a depth. The folding has one entry for each folder, with the flag that its depth decides, and no
other; with it, a projection shows what lies no deeper than that. The folders are found by a walk that lists
each of them once, with its depth, in the order of discovery. -/
theorem openTo_shows_depth (hb : FolderTree.build files = .ok c.tree) (n : Nat) :
    ((Folding.openTo c.tree n).entries.map Prod.fst).Nodup ∧
    (∀ id flag, (id, flag) ∈ (Folding.openTo c.tree n).entries ↔
      c.tree.hasFolder id = true ∧ flag = decide (depthOf id < n)) ∧
    (∀ edges id, id ∈ (c.project edges (Folding.openTo c.tree n)).ids ↔
      id ∈ c.tree.items.map Item.id ∧ depthOf id ≤ n) ∧
    (c.tree.folders.map (·.1.id)).Nodup ∧
    (∀ id d, (∃ x, (x, d) ∈ c.tree.folders ∧ x.id = id) ↔ c.tree.hasFolder id = true ∧ d = depthOf id) ∧
    (c.tree.folders.map (·.1.id)).Pairwise c.tree.Precedes := by
  have h := (FolderTree.wellFormed_build hb).1
  refine ⟨Folding.nodup_entries _, ?_, ?_, h.nodup_folders, ?_,
    h.folders_precede (FolderTree.build_recorded hb).2⟩
  · intro id flag
    rw [Folding.mem_entries, h.get?_openTo]
  · intro edges id
    rw [project_ids, h.mem_visibleIds, h.shows_openTo_iff]
  · intro id d
    exact h.hasFolder_iff_mem_folders

theorem openTo_shows_depth_nested :
    FolderTree.build FolderTree.nestedFiles = .ok FolderTree.nested ∧
    ("a/b", false) ∈ (Folding.openTo FolderTree.nested 2).entries ∧
    ("a", true) ∈ (Folding.openTo FolderTree.nested 2).entries ∧
    (∀ flag, ("e", flag) ∉ (Folding.openTo FolderTree.nested 2).entries) ∧
    "a/d" ∈ (({ tree := FolderTree.nested } : Canvas).project [] (Folding.openTo FolderTree.nested 2)).ids ∧
    "a/b/c" ∉ (({ tree := FolderTree.nested } : Canvas).project [] (Folding.openTo FolderTree.nested 2)).ids := by
  obtain ⟨-, hentries, hids, -⟩ :=
    openTo_shows_depth (c := { tree := FolderTree.nested }) FolderTree.build_nestedFiles 2
  refine ⟨FolderTree.build_nestedFiles, (hentries _ _).mpr (by decide), (hentries _ _).mpr (by decide), ?_,
    (hids _ _).mpr (by decide), ?_⟩
  · intro flag hm
    exact absurd ((hentries _ _).mp hm).1 (by decide)
  · intro hm
    exact absurd ((hids _ _).mp hm).2 (by decide)

end Foldergram
