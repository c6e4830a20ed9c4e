import Foldergram.Proofs.Projection.Dependencies
import Foldergram.Proofs.Source.Exclusion
import Foldergram.Proofs.Tree.Paths

/-!
Folders that lose all their files. There is no entry for a folder in a graph: it is there for the files below
it and goes with the last of them. A dependency on the folder names no file that goes, so it stays behind and
leads nowhere.
-/

namespace Foldergram

variable {g : SourceGraph} {t : FolderTree} {excluded : String → Bool} {id : String}

/-- A folder below the root of which no file is kept. -/
def SourceGraph.Empties (g : SourceGraph) (excluded : String → Bool) (id : String) : Prop :=
  (∃ file ∈ g.files, (id ++ "/").toList <+: file.id.toList) ∧
    ∀ file ∈ g.files, (id ++ "/").toList <+: file.id.toList → excluded file.id = true

instance (g : SourceGraph) (excluded : String → Bool) (id : String) : Decidable (g.Empties excluded id) :=
  inferInstanceAs (Decidable (_ ∧ _))

/-- Files out of those of a tree make a tree. -/
theorem FolderTree.exists_build_of_sublist {files kept : List SourceFile} (hb : build files = .ok t)
    (h : kept.Sublist files) : ∃ t', build kept = .ok t' := by
  obtain ⟨hroot, hapart⟩ := build_isOk_iff.mp ⟨t, hb⟩
  exact build_isOk_iff.mpr ⟨fun file hf => hroot file (h.subset hf), hapart.sublist h⟩

theorem FolderTree.exists_build_exclude (hb : build g.files = .ok t) (excluded : String → Bool) :
    ∃ t', build (g.exclude excluded).files = .ok t' := by
  apply exists_build_of_sublist hb
  rw [SourceGraph.files_exclude]
  exact List.filter_sublist

section Built

variable (hb : FolderTree.build g.files = .ok t)
include hb

/-- What is known of the files that are kept is no emptied folder: the path goes on neither at the root nor
at a file. -/
theorem SourceGraph.not_empties_of_knows (h : (g.exclude excluded).Knows id) : ¬ g.Empties excluded id := by
  obtain ⟨hwf, hp⟩ := FolderTree.wellFormed_build hb
  rintro ⟨⟨below, hbelow, hslash⟩, hgone⟩
  rcases h with rfl | ⟨file, hfile, rfl | hfslash⟩
  · exact hwf.not_slash_rootId (hp.mem_iff.mpr hbelow) hslash
  · have hkept := (mem_files_exclude.mp hfile).1
    refine hwf.not_hasFolder_of_mem_files (hp.mem_iff.mpr hkept) (hwf.hasFolder_iff_path.mpr ?_)
    exact Or.inr ⟨below, hp.mem_iff.mpr hbelow, hslash⟩
  · obtain ⟨hkept, hstays⟩ := mem_files_exclude.mp hfile
    rw [hgone file hkept hfslash] at hstays
    cases hstays

/-- An id that names no file that goes stays known, unless it is that of a folder which is emptied. -/
theorem SourceGraph.knows_exclude_iff (h : g.Knows id) (hid : id ∉ g.excludedIds excluded) :
    (g.exclude excluded).Knows id ↔ ¬ g.Empties excluded id := by
  refine ⟨not_empties_of_knows hb, fun hne => ?_⟩
  rcases h with rfl | ⟨file, hfile, rfl | hslash⟩
  · exact Or.inl rfl
  · have hstays : excluded file.id = false := by
      rw [← Bool.not_eq_true]
      intro he
      exact hid (mem_excludedIds.mpr ⟨List.mem_map_of_mem hfile, he⟩)
    exact Or.inr ⟨file, mem_files_exclude.mpr ⟨hfile, hstays⟩, Or.inl rfl⟩
  · by_contra hunknown
    refine hne ⟨⟨file, hfile, hslash⟩, fun below hbelow hbslash => ?_⟩
    by_contra hstays
    rw [Bool.not_eq_true] at hstays
    exact hunknown (Or.inr ⟨below, mem_files_exclude.mpr ⟨hbelow, hstays⟩, Or.inr hbslash⟩)

end Built

/-- Files can always be left out, and a dependency that is kept is lost afterwards only through folders. If
its ends were items of the whole tree, each of them still is one unless it is a folder of which no file is
kept, and the dependency is skipped for the first end that is such a folder. -/
theorem exclude_loses_emptied_folders (hb : FolderTree.build g.files = .ok t) (excluded : String → Bool) :
    ∃ t', FolderTree.build (g.exclude excluded).files = .ok t' ∧
      ∀ k d, (g.exclude excluded).dependencies[k]? = some d → t.Connects d →
        (d.source ∈ t'.items.map Item.id ↔ ¬ g.Empties excluded d.source) ∧
        (d.target ∈ t'.items.map Item.id ↔ ¬ g.Empties excluded d.target) ∧
        ∀ (c : Canvas) (f : Folding) (id : String), c.tree = t' →
          (⟨k, id⟩ ∈ (c.project (g.exclude excluded).dependencies f).skipped ↔
            g.Empties excluded id ∧ (id = d.source ∨ id = d.target ∧ ¬ g.Empties excluded d.source)) := by
  obtain ⟨t', hb'⟩ := FolderTree.exists_build_exclude hb excluded
  obtain ⟨hwf, hp⟩ := FolderTree.wellFormed_build hb
  obtain ⟨hwf', hp'⟩ := FolderTree.wellFormed_build hb'
  refine ⟨t', hb', fun k d hd hconnects => ?_⟩
  obtain ⟨-, hsource, htarget⟩ := SourceGraph.mem_dependencies_exclude.mp (List.mem_of_getElem? hd)
  have hs : d.source ∈ t'.items.map Item.id ↔ ¬ g.Empties excluded d.source := by
    rw [← hwf'.knows_iff hp']
    exact SourceGraph.knows_exclude_iff hb ((hwf.knows_iff hp).mpr hconnects.1) hsource
  have ht : d.target ∈ t'.items.map Item.id ↔ ¬ g.Empties excluded d.target := by
    rw [← hwf'.knows_iff hp']
    exact SourceGraph.knows_exclude_iff hb ((hwf.knows_iff hp).mpr hconnects.2) htarget
  refine ⟨hs, ht, ?_⟩
  rintro c f id rfl
  rw [mem_skipped_iff]
  constructor
  · rintro ⟨d', hd', hstray, rfl⟩
    obtain rfl := Option.some.inj (hd.symm.trans hd')
    by_cases hkept : d.source ∈ c.tree.items.map Item.id
    · rw [FolderTree.strayEnd, if_pos hkept]
      exact ⟨not_not.mp fun he => hstray ⟨hkept, ht.mpr he⟩, Or.inr ⟨rfl, hs.mp hkept⟩⟩
    · rw [FolderTree.strayEnd, if_neg hkept]
      exact ⟨not_not.mp (mt hs.mpr hkept), Or.inl rfl⟩
  · rintro ⟨hid, rfl | ⟨rfl, he⟩⟩
    · have hlost : d.source ∉ c.tree.items.map Item.id := fun hkept => hs.mp hkept hid
      exact ⟨d, hd, fun h => hlost h.1, if_neg hlost⟩
    · have hlost : d.target ∉ c.tree.items.map Item.id := fun hkept => ht.mp hkept hid
      exact ⟨d, hd, fun h => hlost h.2, if_pos (hs.mpr he)⟩

/-- With the only file of its folder left out, a dependency on the folder is skipped, and the one before it
is routed as ever. -/
theorem exclude_loses_emptied_folders_nested :
    let g : SourceGraph := ⟨FolderTree.nestedFiles, [⟨"e", "a"⟩, ⟨"e", "a/b"⟩]⟩
    let excluded := fun id => id == "a/b/c"
    ∃ t', FolderTree.build (g.exclude excluded).files = .ok t' ∧ "a" ∈ t'.items.map Item.id ∧
      "a/b" ∉ t'.items.map Item.id ∧ ∀ (c : Canvas) (f : Folding), c.tree = t' →
        ⟨1, "a/b"⟩ ∈ (c.project (g.exclude excluded).dependencies f).skipped ∧
        ∀ id, ⟨0, id⟩ ∉ (c.project (g.exclude excluded).dependencies f).skipped := by
  intro g excluded
  obtain ⟨t', hb', h⟩ :=
    exclude_loses_emptied_folders (g := g) FolderTree.build_nestedFiles excluded
  obtain ⟨-, ha, hkept⟩ := h 0 ⟨"e", "a"⟩ (by decide +kernel) (by decide +kernel)
  obtain ⟨-, hb, hlost⟩ := h 1 ⟨"e", "a/b"⟩ (by decide +kernel) (by decide +kernel)
  have hempty : g.Empties excluded "a/b" := by decide +kernel
  have hfull : ¬ g.Empties excluded "a" ∧ ¬ g.Empties excluded "e" := by decide +kernel
  refine ⟨t', hb', ha.mpr hfull.1, fun hm => hb.mp hm hempty, fun c f hc => ⟨?_, fun id hid => ?_⟩⟩
  · exact (hlost c f "a/b" hc).mpr ⟨hempty, Or.inr ⟨rfl, hfull.2⟩⟩
  · rcases (hkept c f id hc).mp hid with ⟨he, rfl | ⟨rfl, -⟩⟩
    · exact hfull.2 he
    · exact hfull.1 he

/-- A dependency between items can be kept and end up between items no more. -/
theorem exclude_disconnects :
    ¬ ∀ (g : SourceGraph) (excluded : String → Bool) (t : FolderTree), FolderTree.build g.files = .ok t →
      ∃ t', FolderTree.build (g.exclude excluded).files = .ok t' ∧
        ∀ d ∈ (g.exclude excluded).dependencies, t.Connects d → t'.Connects d := by
  intro h
  obtain ⟨t', hb, h⟩ := h ⟨FolderTree.nestedFiles, [⟨"e", "a/b"⟩]⟩ (fun id => id == "a/b/c") _
    FolderTree.build_nestedFiles
  obtain rfl : t' = ⟨[.folder "a" "a" [.file "d" ⟨"a/d", "", 2⟩], .file "e" ⟨"e", "", 0⟩],
      ["root", "a", "a/d", "e"]⟩ := Except.ok.inj (hb.symm.trans rfl)
  exact absurd (h ⟨"e", "a/b"⟩ (by decide +kernel) (by decide +kernel)) (by decide +kernel)

end Foldergram
