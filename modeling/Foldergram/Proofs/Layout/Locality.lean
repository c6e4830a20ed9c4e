import Foldergram.Proofs.Folding
import Foldergram.Proofs.Layout.Agreement
import Foldergram.Proofs.Layout.Nesting
import Foldergram.Proofs.Projection.Dependencies
import Foldergram.Proofs.Projection.Preorder
import Foldergram.Proofs.Tree.Bare

/-!
Layout is local. The size of a visible folder and the boxes in it depend on the paths of the files in it and
on which folders are open there, and on nothing outside.
-/

namespace Foldergram

variable {f g : Folding} {t t' : FolderTree} {x y : Item} {id : String} {chain : List String}
  {c c' d d' : Canvas} {edges : List Dependency}

/-- What is written on files has no part in their layout. -/
theorem Item.arrange_bare (x : Item) (f : Folding) : x.bare.arrange f = x.arrange f := by
  induction x with
  | file name source => rfl
  | folder id name contents ih =>
    have hin : arrangeAll f (contents.map bare) = arrangeAll f contents := by
      apply arrangeAll_congr
      rw [List.forall₂_map_left_iff, List.forall₂_same]
      exact fun x hx => ⟨id_bare x, ih x hx⟩
    rw [bare_folder, arrange, arrange, hin]

namespace FolderTree

/-- What an item holds can be told by the ids. -/
theorem WellFormed.mem_all_iff_encloses (h : t.WellFormed) (hx : x ∈ t.items) :
    y ∈ x.all ↔ y ∈ t.items ∧ Encloses x.id y.id := by
  have hplace := h.mem_items_iff.mp hx
  constructor
  · intro hy
    have hyt : y ∈ t.items := Item.mem_all_trans hy hx
    refine ⟨hyt, (h.mem_ancestors_iff_encloses (List.mem_map_of_mem hyt)).mp ?_⟩
    obtain ⟨chain, hp⟩ := Item.mem_all_iff.mp hy
    rcases hp.from_top with ⟨rfl, -⟩ | ⟨_, -, inner, -, rfl⟩
    · exact List.mem_cons_self ..
    · rw [h.ancestors_eq (hp.trans hplace)]
      simp
  · rintro ⟨hyt, henc⟩
    rcases List.mem_cons.mp ((h.mem_ancestors_iff_encloses (List.mem_map_of_mem hyt)).mpr henc) with he | hm
    · rw [List.inj_on_of_nodup_map h.ids_nodup hx hyt he]
      exact Item.mem_all_self y
    · obtain ⟨inner, hp, -⟩ := (h.mem_ancestors_iff hplace hyt).mp hm
      exact hp.mem_all

/-- The files of an item are those files of the tree that its id is around. -/
theorem WellFormed.mem_paths_iff (h : t.WellFormed) (hx : x ∈ t.items) {path : String} :
    path ∈ x.files.map (·.id) ↔ path ∈ t.files.map (·.id) ∧ Encloses x.id path := by
  have hroot : t.files = t.root.files := (Item.files_folder ..).symm
  have hfile : ∀ source, source ∈ x.files ↔ source ∈ t.files ∧ Encloses x.id source.id := by
    intro source
    rw [hroot, Item.mem_files, Item.mem_files]
    constructor
    · rintro ⟨name, hm⟩
      obtain ⟨hmt, henc⟩ := (h.mem_all_iff_encloses hx).mp hm
      exact ⟨⟨name, hmt⟩, henc⟩
    · rintro ⟨⟨name, hmt⟩, henc⟩
      exact ⟨name, (h.mem_all_iff_encloses hx).mpr ⟨hmt, henc⟩⟩
  rw [List.mem_map, List.mem_map]
  constructor
  · rintro ⟨source, hs, rfl⟩
    exact ⟨⟨source, ((hfile source).mp hs).1, rfl⟩, ((hfile source).mp hs).2⟩
  · rintro ⟨⟨source, hs, rfl⟩, henc⟩
    exact ⟨source, (hfile source).mpr ⟨hs, henc⟩, rfl⟩

/-- Items of one id in two trees are arranged alike if the same paths lead into them and the same folders are
open in them. -/
theorem WellFormed.arrange_display_eq (h : t.WellFormed) (h' : t'.WellFormed) (hx : x ∈ t.items)
    (hy : y ∈ t'.items) (hid : x.id = y.id)
    (hfiles : ∀ path, Encloses x.id path → (path ∈ t.files.map (·.id) ↔ path ∈ t'.files.map (·.id)))
    (hflags : ∀ q, t.hasFolder q = true → Encloses x.id q → f.isCollapsed q = g.isCollapsed q) :
    x.display.arrange f = y.display.arrange g := by
  have hagree : x.display.Agrees f g := by
    apply Item.agrees_of_all
    intro z hz hfolder
    obtain ⟨w, hw, rfl⟩ := List.mem_map.mp ((Item.all_display_perm x).mem_iff.mp hz)
    rw [Item.isFolder_display] at hfolder
    rw [Item.id_display]
    obtain ⟨hwt, henc⟩ := (h.mem_all_iff_encloses hx).mp hw
    exact hflags w.id (h.hasFolder_iff.mpr ⟨w, hwt, rfl, hfolder⟩) henc
  have hbare : x.display.bare = y.display.bare := by
    apply h.display_bare_eq h' hx hy hid
    intro path
    rw [h.mem_paths_iff hx, h'.mem_paths_iff hy, ← hid]
    exact and_congr_left (hfiles path)
  calc x.display.arrange f = x.display.arrange g := hagree.arrange_eq
    _ = x.display.bare.arrange g := (Item.arrange_bare _ g).symm
    _ = y.display.bare.arrange g := by rw [hbare]
    _ = y.display.arrange g := Item.arrange_bare _ g

end FolderTree

namespace Canvas

/-- The nodes of a projection that lie in a folder, in their order and with their boxes. -/
def shownIn (c : Canvas) (edges : List Dependency) (f : Folding) (folder : String) : List (String × Box) :=
  ((c.project edges f).nodes.filter fun node => folder ∈ c.tree.ancestors node.id).map
    fun node => (node.id, node.box)

theorem shownIn_eq (c : Canvas) (edges : List Dependency) (f : Folding) (folder : String) :
    c.shownIn edges f folder =
      ((c.tree.visibleIds f).filter fun id => folder ∈ c.tree.ancestors id).map fun id => (id, c.box id) := by
  simp only [shownIn, project, FolderTree.visibleIds, List.filter_map, List.map_map]
  rfl

/-- What is shown in an item are the boxes that its arrangement has made. -/
theorem shownIn_of_place (h : c.tree.WellFormed) (hl : c.layout f = .ok d)
    (hx : c.tree.root.Place x chain) (hall : ∀ p ∈ chain, f.isExpanded p = true) :
    ∃ a, x.display.arrange f = .ok a ∧ (d.box x.id).width = a.size.width ∧
      (d.box x.id).height = a.size.height ∧ ∀ edges, d.shownIn edges f x.id = a.inside := by
  obtain ⟨a, ha, hw, hh, hin⟩ := holds_of_place h hl hx.display hall
  rw [Item.id_display] at hw hh
  refine ⟨a, ha, hw, hh, ?_⟩
  intro edges
  obtain ⟨pre, block, post, hids, houtline, hblock⟩ := h.visibleIds_split_at hx hall
  have hkeys : block = a.inside.map Prod.fst := by
    have he := (Item.keys_arrange ha none).trans houtline
    rw [Item.id_display] at he
    exact (List.cons.inj he).2.symm
  have hsub : block.Sublist (c.tree.visibleIds f) := by
    rw [hids]
    exact ((List.sublist_append_left block post).cons _).trans (List.sublist_append_right ..)
  have hfilter : block = (c.tree.visibleIds f).filter fun other => x.id ∈ c.tree.ancestors other :=
    eq_filter_of_sublist hsub (h.visibleIds_nodup f) (fun other ho => by simpa using hblock other ho)
  rw [shownIn_eq, tree_layout hl, ← hfilter, hkeys, List.map_map]
  have hbox : ∀ entry ∈ a.inside, (entry.1, d.box entry.1) = entry := fun entry he => by rw [hin entry he]
  exact (List.map_congr_left hbox).trans (List.map_id' a.inside)

end Canvas

variable {files files' : List SourceFile}

/-- Layout is local to a folder. Two trees may differ in anything outside a folder that both of them show, in
the order in which its files were found and in what is written on them: if the same paths lead into it and the
same folders are open in it, then it has the same size in both, and the same items are shown in it, in the same
order and with the same boxes. -/
theorem layout_local (hb : FolderTree.build files = .ok c.tree) (hb' : FolderTree.build files' = .ok c'.tree)
    (hl : c.layout f = .ok d) (hl' : c'.layout g = .ok d')
    (hs : c.tree.Shows f id) (hs' : c'.tree.Shows g id)
    (hfiles : ∀ path, Encloses id path → (path ∈ files.map (·.id) ↔ path ∈ files'.map (·.id)))
    (hflags : ∀ q, c.tree.hasFolder q = true → Encloses id q → f.isCollapsed q = g.isCollapsed q)
    (edges edges' : List Dependency) :
    (d.box id).width = (d'.box id).width ∧ (d.box id).height = (d'.box id).height ∧
      d.shownIn edges f id = d'.shownIn edges' g id := by
  obtain ⟨h, hp⟩ := FolderTree.wellFormed_build hb
  obtain ⟨h', hp'⟩ := FolderTree.wellFormed_build hb'
  obtain ⟨x, rfl, hx⟩ := h.exists_place hs.1
  obtain ⟨y, hid, hy⟩ := h'.exists_place hs'.1
  obtain ⟨a, ha, hw, hh, hin⟩ := Canvas.shownIn_of_place h hl hx hs.2
  obtain ⟨a', ha', hw', hh', hin'⟩ := Canvas.shownIn_of_place h' hl' hy hs'.2
  have hpaths : ∀ path, Encloses x.id path →
      (path ∈ c.tree.files.map (·.id) ↔ path ∈ c'.tree.files.map (·.id)) := by
    intro path henc
    rw [(hp.map _).mem_iff, (hp'.map _).mem_iff]
    exact hfiles path henc
  have hsame : a = a' := by
    rw [h.arrange_display_eq h' hx.mem_all hy.mem_all hid.symm hpaths hflags, ha'] at ha
    exact (Except.ok.inj ha).symm
  rw [hid] at hw' hh' hin'
  rw [hw, hh, hin, hw', hh', hin', hsame]
  exact ⟨rfl, rfl, rfl⟩

/-- The first folder of the nested sample alone, its files found in another order and with other labels. -/
def FolderTree.regrouped : FolderTree :=
  ⟨[.folder "a" "a" [.file "d" ⟨"a/d", "D", 7⟩, .folder "a/b" "b" [.file "c" ⟨"a/b/c", "C", 0⟩]]],
    ["root", "a", "a/d", "a/b", "a/b/c"]⟩

theorem FolderTree.layout_regrouped :
    regrouped.layout ((Folding.empty.set "a/b" false).set "e" false) = .ok
      [("root", ⟨0, 0, 510, 350⟩), ("a", ⟨40, 100, 450, 210⟩), ("a/b", ⟨40, 100, 150, 60⟩),
        ("a/d", ⟨210, 100, 220, 70⟩)] := by
  have hone : ∀ x, Item.displayOrder [x] = [x] := fun x =>
    Item.displayOrder_of_pairwise (by simp)
  have htwo : ∀ id contents source, Item.displayOrder [.file "d" source, .folder id "b" contents] =
      [.folder id "b" contents, .file "d" source] := by
    intro id contents source
    rw [Item.displayOrder_eq_of_perm (.swap ..) (by simp)]
    exact Item.displayOrder_of_pairwise (by simp [Item.compareDisplay])
  have hdisplay : regrouped.root.display = .folder rootId rootName
      [.folder "a" "a" [.folder "a/b" "b" [.file "c" ⟨"a/b/c", "C", 0⟩], .file "d" ⟨"a/d", "D", 7⟩]] := by
    simp [regrouped, root, hone, htwo]
  rw [layout, hdisplay]
  decide +kernel

theorem layout_local_nested :
    let f := Folding.empty.set "a/b" false
    let g := f.set "e" false
    FolderTree.nested.Shows f "a" ∧ FolderTree.regrouped.Shows g "a" ∧
      ∃ d d', ({ tree := FolderTree.nested } : Canvas).layout f = .ok d ∧
        ({ tree := FolderTree.regrouped } : Canvas).layout g = .ok d' ∧
        (d.box "a").width = (d'.box "a").width ∧ (d.box "a").height = (d'.box "a").height ∧
        d.shownIn [⟨"e", "a/d"⟩] f "a" = d'.shownIn [] g "a" := by
  intro f g
  have hb : FolderTree.build [⟨"a/d", "D", 7⟩, ⟨"a/b/c", "C", 0⟩] = .ok FolderTree.regrouped := rfl
  have hs : FolderTree.nested.Shows f "a" := ⟨by decide, by decide +kernel⟩
  have hs' : FolderTree.regrouped.Shows g "a" := ⟨by decide, by decide +kernel⟩
  have hapart : ¬ Encloses "a" "e" := by decide
  have hl := Canvas.layout_of_ok (c := { tree := FolderTree.nested }) FolderTree.wellFormed_nested
    FolderTree.layout_nested
  have hl' := Canvas.layout_of_ok (c := { tree := FolderTree.regrouped }) (FolderTree.wellFormed_build hb).1
    FolderTree.layout_regrouped
  refine ⟨hs, hs', _, _, hl, hl', layout_local FolderTree.build_nestedFiles hb hl hl' hs hs' ?_ ?_ _ _⟩
  · intro path henc
    have hne : path ≠ "e" := by
      rintro rfl
      exact hapart henc
    simp [FolderTree.nestedFiles, hne, or_comm]
  · intro q _ henc
    have hne : "e" ≠ q := by
      rintro rfl
      exact hapart henc
    exact ((Folding.isCollapsed_set f "e" q false).trans (if_neg hne)).symm

end Foldergram
