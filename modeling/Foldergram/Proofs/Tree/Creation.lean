import Foldergram.Proofs.Path.Prefixes
import Foldergram.Proofs.Tree.Build

/-!
The order in which items are created. A file adds the prefixes of its path that are not there yet, from the
shortest on, and every folder holds its contents in the order of their creation.
-/

namespace Foldergram

open Foldergram.Path Item

variable {id name p : String} {source : SourceFile} {folder : Option String} {above created created' : List String}
  {contents items pre post : List Item} {g : Growth}

/-- Siblings, and the contents of all folders below them, stand in the order of creation. -/
def Sequenced (created : List String) (items : List Item) : Prop :=
  (items.map Item.id).Sublist created ∧
    ∀ x ∈ items.flatMap Item.all, (x.contents.map Item.id).Sublist created

namespace Sequenced

theorem nil : Sequenced created [] :=
  ⟨by simp, by simp⟩

theorem mono (h : Sequenced created items) (hs : created.Sublist created') : Sequenced created' items :=
  ⟨h.1.trans hs, fun x hx => (h.2 x hx).trans hs⟩

theorem inside {name' : String} (h : Sequenced created (pre ++ .folder id name' contents :: post)) :
    Sequenced created contents := by
  have hm : .folder id name' contents ∈ (pre ++ .folder id name' contents :: post).flatMap Item.all :=
    List.mem_flatMap.mpr ⟨_, by simp, mem_all_self _⟩
  refine ⟨h.2 _ hm, ?_⟩
  intro x hx
  apply h.2
  obtain ⟨y, hy, hx⟩ := List.mem_flatMap.mp hx
  refine List.mem_flatMap.mpr ⟨.folder id name' contents, by simp, ?_⟩
  rw [all_folder]
  exact List.mem_cons_of_mem _ (List.mem_flatMap.mpr ⟨y, hy, hx⟩)

theorem file (h : Sequenced created items) (name : String) (source : SourceFile) :
    Sequenced (created ++ [source.id]) (items ++ [.file name source]) := by
  refine ⟨?_, ?_⟩
  · rw [List.map_append]
    exact h.1.append (List.Sublist.refl _)
  · intro x hx
    rw [List.flatMap_append, List.mem_append] at hx
    rcases hx with hx | hx
    · exact (h.2 x hx).trans (List.sublist_append_left ..)
    · obtain rfl : x = .file name source := by simpa using hx
      exact List.nil_sublist _

theorem opened (h : Sequenced created items) (hin : Sequenced created' contents) (id name : String) :
    Sequenced (created ++ id :: created') (items ++ [.folder id name contents]) := by
  have hsub : created'.Sublist (created ++ id :: created') :=
    (List.sublist_cons_self id created').trans (List.sublist_append_right ..)
  refine ⟨?_, ?_⟩
  · rw [List.map_append]
    exact h.1.append (List.singleton_sublist.mpr (by simp))
  · intro x hx
    rw [List.flatMap_append, List.mem_append] at hx
    rcases hx with hx | hx
    · exact (h.2 x hx).trans (List.sublist_append_left ..)
    · rw [List.flatMap_singleton, all_folder, List.mem_cons] at hx
      rcases hx with rfl | hx
      · exact hin.1.trans hsub
      · exact (hin.2 x hx).trans hsub

theorem entered {name' : String} {contents' : List Item}
    (h : Sequenced created (pre ++ .folder id name' contents :: post))
    (hin : Sequenced (created ++ created') contents') :
    Sequenced (created ++ created') (pre ++ .folder id name' contents' :: post) := by
  have hold := h.mono (List.sublist_append_left created created')
  refine ⟨by simpa using hold.1, ?_⟩
  intro x hx
  simp only [List.flatMap_append, List.flatMap_cons, all_folder, List.mem_append, List.cons_append,
    List.mem_cons] at hx
  rcases hx with hx | rfl | hx | hx
  · exact hold.2 x (by simp [hx])
  · exact hin.1
  · exact hin.2 x hx
  · exact hold.2 x (by simp [hx])

end Sequenced

/-- An id on a path through `id` is there exactly if it is in the sibling of that id. -/
theorem Item.Siblings.mem_ids_iff (h : Siblings above items) (hid : segments id = above ++ [name])
    (hp : segments id <+: segments p) : p ∈ (items.flatMap Item.all).map Item.id ↔
      ∃ x ∈ items, x.id = id ∧ p ∈ x.all.map Item.id := by
  rw [List.map_flatMap]
  exact h.mem_flatMap_iff (fun x => List.Subset.refl _) hid hp

/-- What a growth writes down: it creates what is missing on the path, in the order of the path, and keeps
all contents in the order of creation. -/
structure Recorded (path : List String) (items : List Item) (g : Growth) : Prop where
  created : g.created = path.filter (· ∉ (items.flatMap Item.all).map Item.id)
  sequenced : ∀ before, Sequenced before items → Sequenced (before ++ g.created) g.items

/-- By induction on the names ahead, one case for each way in which a step can succeed. -/
theorem growPath_recorded {rest : List String} (hs : Siblings (segmentsOf folder) items)
    (hseg : segments source.id = segmentsOf folder ++ name :: rest)
    (h : growPath source folder (name :: rest) items = .ok g) :
    Recorded (trail folder (name :: rest)) items g := by
  induction rest generalizing folder name items g with
  | nil =>
    have hid : child folder name = source.id :=
      segments_injective ((segments_child_of_ahead hseg).trans hseg.symm)
    rw [growPath_last] at h
    split at h
    · cases h
    · rename_i hfree
      cases h
      simp only [List.any_eq_true, decide_eq_true_eq, not_or, not_exists, not_and] at hfree
      have hnew : source.id ∉ (items.flatMap Item.all).map Item.id := by
        intro hm
        obtain ⟨x, hx, he, -⟩ := (hs.mem_ids_iff hseg List.prefix_rfl).mp hm
        exact hfree.2 x hx he
      refine ⟨?_, fun before hb => hb.file name source⟩
      rw [trail, trail, hid, List.filter_cons_of_pos (by simpa using hnew), List.filter_nil]
  | cons next rest ih =>
    have hid := segments_child_of_ahead hseg
    have hseg' := segments_ahead hseg
    have hdeep : ∀ p ∈ trail (some (child folder name)) (next :: rest),
        segments (child folder name) <+: segments p ∧ p ≠ child folder name := by
      intro p hp
      have hslash := slash_of_mem_trail hseg' hp
      refine ⟨isPrefix_segments_iff.mpr (Or.inr hslash), ?_⟩
      rintro rfl
      exact not_slash_isPrefix_self _ hslash
    rw [trail]
    rcases growPath_step_cases hs source folder name next rest with ⟨-, hg⟩ | ⟨hroot, ⟨_, _, -, -, hg⟩ |
      ⟨pre, name', contents, post, rfl, hg⟩ | ⟨hnew, hg⟩⟩ <;> rw [h] at hg
    · cases hg
    · cases hg
    · obtain ⟨inner, hinner, rfl⟩ := map_eq_ok.mp hg.symm
      obtain ⟨hcreated, hseq⟩ := ih hs.inside hseg' hinner
      refine ⟨?_, fun before hb => hb.entered (hseq before hb.inside)⟩
      rw [List.filter_cons_of_neg (by simp)]
      refine hcreated.trans (List.filter_congr ?_)
      intro p hp
      obtain ⟨hbelow, hne⟩ := hdeep p hp
      rw [decide_eq_decide, not_iff_not, hs.mem_ids_iff hid hbelow]
      constructor
      · intro hm
        exact ⟨.folder (child folder name) name' contents, by simp, rfl, by simp_all⟩
      · rintro ⟨x, hx, he, hm⟩
        obtain rfl : x = .folder (child folder name) name' contents :=
          hs.eq_of_id_eq hx (by simp) he
        rw [all_folder, List.map_cons, id_folder, List.mem_cons] at hm
        exact hm.resolve_left hne
    · obtain ⟨inner, hinner, rfl⟩ := map_eq_ok.mp hg.symm
      obtain ⟨hcreated, hseq⟩ := ih .nil hseg' hinner
      refine ⟨?_, fun before hb => hb.opened (hseq [] .nil) (child folder name) name⟩
      have habsent : ∀ p, segments (child folder name) <+: segments p →
          p ∉ (items.flatMap Item.all).map Item.id := by
        intro p hp hm
        obtain ⟨x, hx, he, -⟩ := (hs.mem_ids_iff hid hp).mp hm
        exact hnew x hx he
      rw [List.filter_cons_of_pos (by simpa using habsent _ List.prefix_rfl)]
      refine congrArg (child folder name :: ·) (hcreated.trans (List.filter_congr ?_))
      intro p hp
      rw [decide_eq_decide]
      simpa using habsent p (hdeep p hp).1

/-- A list without repetitions has nothing to erase. -/
theorem eraseDups_eq_self {l : List String} (h : l.Nodup) : l.eraseDups = l := by
  induction l with
  | nil => rfl
  | cons a l ih =>
    rw [List.nodup_cons] at h
    rw [List.eraseDups_cons, List.filter_eq_self.mpr, ih h.2]
    intro b hb
    simp only [Bool.not_eq_eq_eq_not, Bool.not_true, beq_eq_false_iff_ne]
    rintro rfl
    exact h.1 hb

namespace FolderTree

variable {t t' : FolderTree} {files : List SourceFile}

/-- What an insertion adds to the record of a tree. -/
theorem insert_recorded (ht : t.WellFormed) (h : t.insert source = .ok t') : ∃ g,
    t' = ⟨g.items, t.created ++ g.created⟩ ∧ Recorded (prefixes source.id) t.contents g := by
  obtain ⟨g, hg, rfl⟩ := insert_eq_ok.mp h
  obtain ⟨name, rest, hseg⟩ := exists_ahead source
  have hs : Siblings (segmentsOf none) t.contents := ht.siblings
  have hahead : segments source.id = segmentsOf none ++ name :: rest := hseg
  refine ⟨g, rfl, ?_⟩
  rw [← trail_segments, hseg]
  exact growPath_recorded hs hahead (by rwa [hseg] at hg)

/-- The creation order of a built tree, by induction on the files: the ids are the first occurrences among
the prefixes of all paths, and all contents follow this order. -/
theorem build_recorded (h : build files = .ok t) :
    t.created = rootId :: (files.flatMap fun file => prefixes file.id).eraseDups ∧
      Sequenced t.created t.contents := by
  induction files using List.reverseRecOn generalizing t with
  | nil =>
    cases h
    exact ⟨rfl, .nil⟩
  | append_singleton files file ih =>
    rw [build_concat] at h
    obtain ⟨u, hu, h⟩ := bind_eq_ok.mp h
    obtain ⟨hcreated, hseq⟩ := ih hu
    have hwf := (wellFormed_build hu).1
    obtain ⟨g, rfl, hg⟩ := insert_recorded hwf h
    refine ⟨?_, hg.sequenced _ hseq⟩
    have hperm := hwf.created
    rw [hcreated, items_eq, List.map_cons, root, id_folder, List.perm_cons] at hperm
    have hnew : (prefixes file.id).removeAll (files.flatMap fun file => prefixes file.id) = g.created := by
      rw [hg.created]
      apply List.filter_congr
      intro p _
      have hmem : p ∈ (u.contents.flatMap Item.all).map Item.id ↔
          p ∈ files.flatMap fun file => prefixes file.id := by
        rw [← hperm.mem_iff, List.mem_eraseDups]
      rw [decide_not, decide_eq_decide.mpr hmem, List.elem_eq_mem]
    have hnodup : g.created.Nodup := by
      rw [hg.created]
      exact (nodup_prefixes file.id).filter _
    rw [List.flatMap_append, List.flatMap_singleton, List.eraseDups_append, hnew, eraseDups_eq_self hnodup,
      hcreated, List.cons_append]

end FolderTree

end Foldergram
