import Foldergram.Proofs.Checked
import Foldergram.Proofs.Tree.WellPlaced
import Foldergram.Tree.Build
import Mathlib.Data.List.Perm.Basic

/-!
What building a tree does. An insertion keeps the tree well formed and adds one file; it succeeds
exactly if the new path and the paths of the files already there do not run through one another.
-/

namespace Foldergram

open Foldergram.Path Item

variable {id name : String} {source : SourceFile} {folder : Option String} {above : List String}
  {contents items pre post : List Item} {grow : List Item → Except Collision Growth} {g : Growth}

theorem growFolder_cons {x : Item} (h : x.id ≠ id) :
    growFolder id name grow (x :: items) = (growFolder id name grow items).map fun rest =>
      ⟨x :: rest.items, rest.created⟩ := by
  cases x with
  | file name' source =>
    rw [id_file] at h
    rw [growFolder, if_neg h]
    cases growFolder id name grow items <;> rfl
  | folder id' name' contents =>
    rw [id_folder] at h
    rw [growFolder, if_neg h]
    cases growFolder id name grow items <;> rfl

theorem growFolder_absent (h : ∀ x ∈ items, x.id ≠ id) :
    growFolder id name grow items = (grow []).map fun inner =>
      ⟨items ++ [.folder id name inner.items], id :: inner.created⟩ := by
  induction items with
  | nil =>
    rw [growFolder]
    cases grow [] <;> rfl
  | cons x items ih =>
    rw [growFolder_cons (h x (List.mem_cons_self ..)), ih (fun y hy => h y (List.mem_cons_of_mem _ hy))]
    cases grow [] <;> rfl

theorem growFolder_folder (h : ∀ x ∈ pre, x.id ≠ id) {name' : String} :
    growFolder id name grow (pre ++ .folder id name' contents :: post) = (grow contents).map fun inner =>
      ⟨pre ++ .folder id name' inner.items :: post, inner.created⟩ := by
  induction pre with
  | nil =>
    rw [List.nil_append, growFolder, if_pos rfl]
    cases grow contents <;> rfl
  | cons x pre ih =>
    rw [List.cons_append, growFolder_cons (h x (List.mem_cons_self ..)),
      ih (fun y hy => h y (List.mem_cons_of_mem _ hy))]
    cases grow contents <;> rfl

theorem growFolder_file (h : ∀ x ∈ pre, x.id ≠ source.id) {name' : String} :
    growFolder source.id name grow (pre ++ .file name' source :: post) = .error ⟨source.id⟩ := by
  induction pre with
  | nil => rw [List.nil_append, growFolder, if_pos rfl]
  | cons x pre ih =>
    rw [List.cons_append, growFolder_cons (h x (List.mem_cons_self ..)),
      ih (fun y hy => h y (List.mem_cons_of_mem _ hy))]
    rfl

/-- Siblings with one of a given id: what stands before and behind it has other ids. -/
theorem Item.Siblings.split (h : Siblings above items) (hid : id ∈ items.map Item.id) :
    ∃ pre x post, items = pre ++ x :: post ∧ x.id = id ∧
      (∀ y ∈ pre, y.id ≠ id) ∧ ∀ y ∈ post, y.id ≠ id := by
  obtain ⟨x, hx, rfl⟩ := List.mem_map.mp hid
  obtain ⟨pre, post, rfl⟩ := List.append_of_mem hx
  have hd := h.distinct
  rw [List.map_append, List.map_cons, List.nodup_middle, List.nodup_cons, List.mem_append] at hd
  refine ⟨pre, x, post, rfl, rfl, ?_, ?_⟩
  · intro y hy he
    exact hd.1 (Or.inl (he ▸ List.mem_map_of_mem hy))
  · intro y hy he
    exact hd.1 (Or.inr (he ▸ List.mem_map_of_mem hy))

theorem Item.Siblings.concat {x : Item} (h : Siblings above items) (hx : x.WellPlaced above)
    (hnew : ∀ y ∈ items, y.id ≠ x.id) : Siblings above (items ++ [x]) := by
  refine ⟨?_, ?_⟩
  · rw [List.map_append, List.map_singleton, ← List.concat_eq_append, List.nodup_concat]
    refine ⟨?_, h.distinct⟩
    intro hm
    obtain ⟨y, hy, he⟩ := List.mem_map.mp hm
    exact hnew y hy he
  · intro y hy
    rcases List.mem_append.mp hy with hy | hy
    · exact h.placed y hy
    · exact List.mem_singleton.mp hy ▸ hx

/-- Siblings after a file has been added somewhere below them. -/
structure Grown (source : SourceFile) (above : List String) (items : List Item) (g : Growth) : Prop where
  siblings : Siblings above g.items
  files : (g.items.flatMap Item.files).Perm (source :: items.flatMap Item.files)
  ids : ((g.items.flatMap Item.all).map Item.id).Perm (g.created ++ (items.flatMap Item.all).map Item.id)
  rootFree : (∀ x ∈ items, x.id ≠ rootId) → ∀ x ∈ g.items, x.id ≠ rootId

theorem Grown.ne_nil (h : Grown source above items g) : g.items ≠ [] := by
  intro he
  have hf := h.files
  simp [he] at hf

theorem Grown.file (hs : Siblings above items) (hseg : segments source.id = above ++ [name])
    (hroot : source.id ≠ rootId) (hnew : ∀ x ∈ items, x.id ≠ source.id) :
    Grown source above items ⟨items ++ [.file name source], [source.id]⟩ where
  siblings := hs.concat (.file hseg) hnew
  files := by simp
  ids := by simp
  rootFree := by
    intro h x hx
    rcases List.mem_append.mp hx with hx | hx
    · exact h x hx
    · rw [List.mem_singleton.mp hx]
      exact hroot

theorem Grown.opened (hs : Siblings above items) (hseg : segments id = above ++ [name])
    (hroot : id ≠ rootId) (hnew : ∀ x ∈ items, x.id ≠ id) (hg : Grown source (segments id) [] g) :
    Grown source above items ⟨items ++ [.folder id name g.items], id :: g.created⟩ where
  siblings :=
    hs.concat (.folder hseg hg.ne_nil hg.siblings.distinct (hseg ▸ hg.siblings.placed)) hnew
  files := by
    apply List.perm_iff_count.mpr
    intro a
    have hf := hg.files.count_eq a
    simp only [List.flatMap_append, List.flatMap_singleton, files_folder, List.count_append,
      List.flatMap_nil, List.count_nil, List.count_cons] at hf ⊢
    omega
  ids := by
    apply List.perm_iff_count.mpr
    intro a
    have hi := hg.ids.count_eq a
    simp only [List.flatMap_append, List.flatMap_singleton, all_folder, List.map_append, List.map_cons,
      List.count_append, List.flatMap_nil, List.map_nil, List.count_cons, List.count_nil, id_folder] at hi ⊢
    omega
  rootFree := by
    intro h x hx
    rcases List.mem_append.mp hx with hx | hx
    · exact h x hx
    · rw [List.mem_singleton.mp hx]
      exact hroot

theorem Grown.entered {name' : String}
    (hs : Siblings above (pre ++ .folder id name' contents :: post))
    (hg : Grown source (segments id) contents g) :
    Grown source above (pre ++ .folder id name' contents :: post)
      ⟨pre ++ .folder id name' g.items :: post, g.created⟩ where
  siblings := by
    have hx := hs.placed (.folder id name' contents) (by simp)
    refine ⟨by simpa using hs.distinct, ?_⟩
    intro x hm
    rcases List.mem_append.mp hm with hm | hm
    · exact hs.placed x (List.mem_append_left _ hm)
    · rcases List.mem_cons.mp hm with rfl | hm
      · exact .folder hx.segments_id hg.ne_nil hg.siblings.distinct
          (hx.segments_id ▸ hg.siblings.placed)
      · exact hs.placed x (List.mem_append_right _ (List.mem_cons_of_mem _ hm))
  files := by
    apply List.perm_iff_count.mpr
    intro a
    have hf := hg.files.count_eq a
    simp only [List.flatMap_append, List.flatMap_cons, files_folder, List.count_append,
      List.count_cons] at hf ⊢
    omega
  ids := by
    apply List.perm_iff_count.mpr
    intro a
    have hi := hg.ids.count_eq a
    simp only [List.flatMap_append, List.flatMap_cons, all_folder, List.map_append, List.map_cons,
      List.count_append, List.count_cons, id_folder] at hi ⊢
    omega
  rootFree := by
    intro h x hm
    rcases List.mem_append.mp hm with hm | hm
    · exact h x (List.mem_append_left _ hm)
    · rcases List.mem_cons.mp hm with rfl | hm
      · exact h (.folder id name' contents) (by simp)
      · exact h x (List.mem_append_right _ (List.mem_cons_of_mem _ hm))

theorem growPath_last (name : String) :
    growPath source folder [name] items =
      if source.id = rootId ∨ items.any (·.id = source.id) then .error ⟨source.id⟩
      else .ok ⟨items ++ [.file name source], [source.id]⟩ := rfl

theorem growPath_step (name next : String) (rest : List String) :
    growPath source folder (name :: next :: rest) items =
      if child folder name = rootId then .error ⟨child folder name⟩
      else growFolder (child folder name) name
        (growPath source (some (child folder name)) (next :: rest)) items := rfl

/-- One step along a path: it stops at the root's own id or at a file, goes on in the folder of that id, or
opens this folder behind its siblings. -/
theorem growPath_step_cases (hs : Siblings above items) (source : SourceFile) (folder : Option String)
    (name next : String) (rest : List String) :
    (child folder name = rootId ∧
      growPath source folder (name :: next :: rest) items = .error ⟨child folder name⟩) ∨
    child folder name ≠ rootId ∧
      ((∃ name' source', .file name' source' ∈ items ∧ source'.id = child folder name ∧
        growPath source folder (name :: next :: rest) items = .error ⟨child folder name⟩) ∨
      (∃ pre name' contents post, items = pre ++ .folder (child folder name) name' contents :: post ∧
        growPath source folder (name :: next :: rest) items =
          (growPath source (some (child folder name)) (next :: rest) contents).map fun inner =>
            ⟨pre ++ .folder (child folder name) name' inner.items :: post, inner.created⟩) ∨
      (∀ x ∈ items, x.id ≠ child folder name) ∧
        growPath source folder (name :: next :: rest) items =
          (growPath source (some (child folder name)) (next :: rest) []).map fun inner =>
            ⟨items ++ [.folder (child folder name) name inner.items], child folder name :: inner.created⟩) := by
  rw [growPath_step]
  by_cases hroot : child folder name = rootId
  · rw [if_pos hroot]
    exact Or.inl ⟨hroot, rfl⟩
  · rw [if_neg hroot]
    refine Or.inr ⟨hroot, ?_⟩
    by_cases hm : child folder name ∈ items.map Item.id
    · obtain ⟨pre, x, post, rfl, hx, hpre, _⟩ := hs.split hm
      cases x with
      | file name' source' =>
        rw [id_file] at hx
        rw [← hx, growFolder_file (hx ▸ hpre)]
        exact Or.inl ⟨name', source', by simp, rfl, rfl⟩
      | folder id' name' contents =>
        rw [id_folder] at hx
        subst hx
        rw [growFolder_folder hpre]
        exact Or.inr (Or.inl ⟨pre, name', contents, post, rfl, rfl⟩)
    · have hnew : ∀ x ∈ items, x.id ≠ child folder name := by
        intro x hx he
        exact hm (he ▸ List.mem_map_of_mem hx)
      rw [growFolder_absent hnew]
      exact Or.inr (Or.inr ⟨hnew, rfl⟩)

/-- The path of a file, as far as it has been followed: the folder reached and the names ahead. -/
theorem segments_child_of_ahead {rest : List String}
    (hseg : segments source.id = segmentsOf folder ++ name :: rest) :
    segments (child folder name) = segmentsOf folder ++ [name] := by
  apply segments_child
  have hm : name ∈ segments source.id := by simp [hseg]
  exact no_slash_of_mem_segments hm

theorem segments_ahead {rest : List String}
    (hseg : segments source.id = segmentsOf folder ++ name :: rest) :
    segments source.id = segmentsOf (some (child folder name)) ++ rest := by
  rw [segmentsOf_some, segments_child_of_ahead hseg, hseg, List.append_assoc, List.singleton_append]

theorem Item.Siblings.inside {name' : String}
    (hs : Siblings above (pre ++ .folder id name' contents :: post)) :
    Siblings (segmentsOf (some id)) contents :=
  (hs.placed (.folder id name' contents) (by simp)).siblings

theorem Item.Siblings.nil : Siblings above [] :=
  ⟨by simp, by simp⟩

theorem growPath_grown {rest : List String} (hs : Siblings (segmentsOf folder) items)
    (hseg : segments source.id = segmentsOf folder ++ name :: rest)
    (h : growPath source folder (name :: rest) items = .ok g) :
    Grown source (segmentsOf folder) items g := by
  induction rest generalizing folder name items g with
  | nil =>
    rw [growPath_last] at h
    split at h
    · cases h
    · rename_i hfree
      cases h
      simp only [List.any_eq_true, decide_eq_true_eq, not_or, not_exists, not_and] at hfree
      exact .file hs hseg hfree.1 hfree.2
  | cons next rest ih =>
    rcases growPath_step_cases hs source folder name next rest with ⟨-, hg⟩ | ⟨hroot, ⟨_, _, -, -, hg⟩ |
      ⟨pre, name', contents, post, rfl, hg⟩ | ⟨hnew, hg⟩⟩ <;> rw [h] at hg
    · cases hg
    · cases hg
    · obtain ⟨inner, hinner, rfl⟩ := map_eq_ok.mp hg.symm
      exact .entered hs (ih hs.inside (segments_ahead hseg) hinner)
    · obtain ⟨inner, hinner, rfl⟩ := map_eq_ok.mp hg.symm
      exact .opened hs (segments_child_of_ahead hseg) hroot hnew
        (ih .nil (segments_ahead hseg) hinner)

/-- A path that goes on through `id` and a file below a sibling of another id are apart. -/
theorem Item.WellPlaced.apart_of_id_ne {x : Item} {file : SourceFile} {path : String}
    (hx : x.WellPlaced above) (hf : file ∈ x.files) (hid : segments id = above ++ [name])
    (hpath : segments id <+: segments path) (hne : x.id ≠ id) : Apart file.id path := by
  have hfile := hx.isPrefix_of_mem_files hf
  exact ⟨fun h => hne (hx.id_eq_of_ahead hid (hfile.trans h) hpath),
    fun h => hne (hx.id_eq_of_ahead hid hfile (hpath.trans h))⟩

/-- Only the sibling that a path goes through can hold a file in its way. -/
theorem Item.Siblings.forall_apart_iff (h : Siblings above items) {path : String}
    (hid : segments id = above ++ [name]) (hpath : segments id <+: segments path) :
    (∀ file ∈ items.flatMap Item.files, Apart file.id path) ↔
      ∀ x ∈ items, x.id = id → ∀ file ∈ x.files, Apart file.id path := by
  constructor
  · intro hap x hx _ file hf
    exact hap file (List.mem_flatMap.mpr ⟨x, hx, hf⟩)
  · intro hap file hf
    obtain ⟨x, hx, hf⟩ := List.mem_flatMap.mp hf
    by_cases he : x.id = id
    · exact hap x hx he file hf
    · exact (h.placed x hx).apart_of_id_ne hf hid hpath he

/-- The place at the end of a path is free if and only if no file is in the way. -/
theorem Item.Siblings.forall_id_ne_iff (h : Siblings above items) {path : String}
    (hpath : segments path = above ++ [name]) :
    (∀ x ∈ items, x.id ≠ path) ↔ ∀ file ∈ items.flatMap Item.files, Apart file.id path := by
  rw [h.forall_apart_iff hpath List.prefix_rfl]
  constructor
  · intro hne x hx he
    exact (hne x hx he).elim
  · intro hap x hx he
    obtain ⟨file, hf⟩ := List.exists_mem_of_ne_nil _ (h.placed x hx).files_ne_nil
    apply (hap x hx he file hf).2
    rw [← he, (h.placed x hx).segments_id]
    exact (h.placed x hx).isPrefix_of_mem_files hf

theorem eq_rootId_iff (hid : segments id = above ++ [name]) : id = rootId ↔ above ++ [name] = [rootId] := by
  have hroot : segments rootId = [rootId] := segments_of_no_slash (by decide)
  rw [← hid, ← hroot]
  exact segments_injective.eq_iff.symm

/-- An insertion succeeds unless the path starts at the root's own id or a file is in its way. -/
theorem growPath_isOk_iff {rest : List String} (hs : Siblings (segmentsOf folder) items)
    (hseg : segments source.id = segmentsOf folder ++ name :: rest) :
    (∃ g, growPath source folder (name :: rest) items = .ok g) ↔
      segmentsOf folder ++ [name] ≠ [rootId] ∧
        ∀ file ∈ items.flatMap Item.files, Apart file.id source.id := by
  induction rest generalizing folder name items with
  | nil =>
    rw [growPath_last, ← hs.forall_id_ne_iff hseg, ne_eq, ← eq_rootId_iff hseg]
    split
    · rename_i h
      simp only [reduceCtorEq, exists_false, false_iff, not_and]
      intro hroot hne
      rcases h with h | h
      · exact hroot h
      · obtain ⟨x, hx, he⟩ := List.any_eq_true.mp h
        exact hne x hx (of_decide_eq_true he)
    · rename_i h
      simp only [List.any_eq_true, decide_eq_true_eq, not_or, not_exists, not_and] at h
      exact ⟨fun _ => h, fun _ => ⟨_, rfl⟩⟩
  | cons next rest ih =>
    have hid := segments_child_of_ahead hseg
    have hseg' := segments_ahead hseg
    have hahead : segments (child folder name) <+: segments source.id := ⟨next :: rest, hseg'.symm⟩
    have hdeep : segmentsOf (some (child folder name)) ++ [next] ≠ [rootId] := by
      intro he
      have hl := congrArg List.length he
      simp [hid] at hl
    rw [ne_eq, ← eq_rootId_iff hid, hs.forall_apart_iff hid hahead]
    rcases growPath_step_cases hs source folder name next rest with ⟨hroot, hg⟩ | ⟨hroot,
      ⟨name', source', hm, hx, hg⟩ | ⟨pre, name', contents, post, rfl, hg⟩ | ⟨hnew, hg⟩⟩ <;> rw [hg]
    · simp [hroot]
    · simp only [reduceCtorEq, exists_false, false_iff, not_and]
      intro _ hap
      exact (hap (.file name' source') hm hx source' (by simp)).1 (hx ▸ hahead)
    · have hi := ih hs.inside hseg'
      constructor
      · rintro ⟨g, hg⟩
        obtain ⟨inner, hinner, -⟩ := map_eq_ok.mp hg
        refine ⟨hroot, ?_⟩
        intro x hx he file hf
        obtain rfl : x = .folder (child folder name) name' contents :=
          hs.eq_of_id_eq hx (by simp) he
        rw [files_folder] at hf
        exact (hi.mp ⟨inner, hinner⟩).2 file hf
      · rintro ⟨-, hap⟩
        have hinside := hap (.folder (child folder name) name' contents) (by simp) rfl
        rw [files_folder] at hinside
        obtain ⟨inner, hinner⟩ := hi.mpr ⟨hdeep, hinside⟩
        exact ⟨_, map_eq_ok.mpr ⟨inner, hinner, rfl⟩⟩
    · obtain ⟨inner, hinner⟩ := (ih .nil hseg').mpr ⟨hdeep, by simp⟩
      exact ⟨fun _ => ⟨hroot, fun x hx he => (hnew x hx he).elim⟩,
        fun _ => ⟨_, map_eq_ok.mpr ⟨inner, hinner, rfl⟩⟩⟩

namespace FolderTree

variable {t t' : FolderTree} {files : List SourceFile}

theorem insert_eq_ok : t.insert source = .ok t' ↔
    ∃ g, growPath source none (segments source.id) t.contents = .ok g ∧
      ⟨g.items, t.created ++ g.created⟩ = t' := by
  rw [insert, bind_eq_ok]
  simp only [pure_eq_ok]

theorem exists_ahead (source : SourceFile) :
    ∃ name rest, segments source.id = name :: rest := by
  cases h : segments source.id with
  | nil => exact (segments_ne_nil _ h).elim
  | cons name rest => exact ⟨name, rest, rfl⟩

theorem wellFormed_empty : ({} : FolderTree).WellFormed where
  siblings := ⟨by simp, by simp⟩
  rootFree := by simp
  created := by simp [items_eq, root]

theorem wellFormed_insert (ht : t.WellFormed) (h : t.insert source = .ok t') :
    t'.WellFormed ∧ t'.files.Perm (source :: t.files) := by
  obtain ⟨g, hg, rfl⟩ := insert_eq_ok.mp h
  obtain ⟨name, rest, hseg⟩ := exists_ahead source
  have hs : Siblings (segmentsOf none) t.contents := ht.siblings
  have hgrown : Grown source [] t.contents g := growPath_grown hs hseg (by rwa [hseg] at hg)
  refine ⟨⟨hgrown.siblings, hgrown.rootFree ht.rootFree, ?_⟩, hgrown.files⟩
  apply List.perm_iff_count.mpr
  intro a
  have hi := hgrown.ids.count_eq a
  have hc := ht.created.count_eq a
  simp only [items_eq, root, List.map_cons, List.count_cons, List.count_append, id_folder] at hi hc ⊢
  omega

theorem insert_isOk_iff (ht : t.WellFormed) : (∃ t', t.insert source = .ok t') ↔
    ¬ [rootId] <+: segments source.id ∧ ∀ file ∈ t.files, Apart file.id source.id := by
  obtain ⟨name, rest, hseg⟩ := exists_ahead source
  have hs : Siblings (segmentsOf none) t.contents := ht.siblings
  have hg := growPath_isOk_iff hs (show segments source.id = segmentsOf none ++ name :: rest from hseg)
  have hroot : segmentsOf none ++ [name] ≠ [rootId] ↔ ¬ [rootId] <+: segments source.id := by
    simp [hseg, List.cons_prefix_cons, eq_comm]
  rw [← hroot, files, ← hg]
  constructor
  · rintro ⟨t', h⟩
    obtain ⟨g, hg, -⟩ := insert_eq_ok.mp h
    exact ⟨g, by rwa [hseg] at hg⟩
  · rintro ⟨g, h⟩
    exact ⟨_, insert_eq_ok.mpr ⟨g, by rwa [hseg], rfl⟩⟩

theorem wellFormed_foldlM (ht : t.WellFormed) (h : files.foldlM insert t = .ok t') :
    t'.WellFormed ∧ t'.files.Perm (files ++ t.files) := by
  induction files generalizing t with
  | nil =>
    obtain rfl : t = t' := by simpa using h
    exact ⟨ht, List.Perm.refl _⟩
  | cons source files ih =>
    rw [List.foldlM_cons] at h
    obtain ⟨u, hu, h⟩ := bind_eq_ok.mp h
    obtain ⟨hwf, hp⟩ := wellFormed_insert ht hu
    obtain ⟨hwf', hp'⟩ := ih hwf h
    refine ⟨hwf', hp'.trans ?_⟩
    exact (hp.append_left files).trans List.perm_middle

theorem build_concat (files : List SourceFile) (file : SourceFile) :
    build (files ++ [file]) = build files >>= (·.insert file) := by
  rw [build, build, List.foldlM_append]
  congr 1
  funext t
  rw [List.foldlM_cons]
  exact bind_pure _

/-- Every built tree is well formed and holds the given files. -/
theorem wellFormed_build (h : build files = .ok t) : t.WellFormed ∧ t.files.Perm files := by
  simpa [FolderTree.files] using wellFormed_foldlM wellFormed_empty h

theorem foldlM_isOk_iff (ht : t.WellFormed) : (∃ t', files.foldlM insert t = .ok t') ↔
    (∀ file ∈ files, ¬ [rootId] <+: segments file.id) ∧
      files.Pairwise (fun a b => Apart a.id b.id) ∧
      ∀ file ∈ files, ∀ old ∈ t.files, Apart old.id file.id := by
  induction files generalizing t with
  | nil => simp
  | cons source files ih =>
    constructor
    · rintro ⟨t', h⟩
      rw [List.foldlM_cons] at h
      obtain ⟨u, hu, h⟩ := bind_eq_ok.mp h
      obtain ⟨hwf, hp⟩ := wellFormed_insert ht hu
      obtain ⟨hroot, hap⟩ := (insert_isOk_iff ht).mp ⟨u, hu⟩
      obtain ⟨hroots, hpw, hold⟩ := (ih hwf).mp ⟨t', h⟩
      have hfirst : ∀ file ∈ files, Apart source.id file.id := fun file hf =>
        hold file hf source (hp.mem_iff.mpr (List.mem_cons_self ..))
      have hrest : ∀ file ∈ files, ∀ old ∈ t.files, Apart old.id file.id := fun file hf old ho =>
        hold file hf old (hp.mem_iff.mpr (List.mem_cons_of_mem _ ho))
      exact ⟨List.forall_mem_cons.mpr ⟨hroot, hroots⟩, List.pairwise_cons.mpr ⟨hfirst, hpw⟩,
        List.forall_mem_cons.mpr ⟨hap, hrest⟩⟩
    · rintro ⟨hroots, hpw, hold⟩
      rw [List.forall_mem_cons] at hroots hold
      rw [List.pairwise_cons] at hpw
      obtain ⟨u, hu⟩ := (insert_isOk_iff ht).mpr ⟨hroots.1, hold.1⟩
      obtain ⟨hwf, hp⟩ := wellFormed_insert ht hu
      have hnew : ∀ file ∈ files, ∀ old ∈ u.files, Apart old.id file.id := by
        intro file hf old ho
        rcases List.mem_cons.mp (hp.mem_iff.mp ho) with rfl | ho
        · exact hpw.1 file hf
        · exact hold.2 file hf old ho
      obtain ⟨t', h⟩ := (ih hwf).mpr ⟨hroots.2, hpw.2, hnew⟩
      refine ⟨t', ?_⟩
      rw [List.foldlM_cons]
      exact bind_eq_ok.mpr ⟨u, hu, h⟩

/-- Files can be built into a tree if and only if no path starts at the root's own id and no path runs
through another. The order of the files does not enter. -/
theorem build_isOk_iff : (∃ t, build files = .ok t) ↔
    (∀ file ∈ files, ¬ [rootId] <+: segments file.id) ∧
      files.Pairwise (fun a b => Apart a.id b.id) := by
  rw [build, foldlM_isOk_iff wellFormed_empty]
  simp [FolderTree.files]

/-- A folder inside a folder, each with a file beside it. -/
def nestedFiles : List SourceFile :=
  [⟨"a/b/c", "", 0⟩, ⟨"a/d", "", 2⟩, ⟨"e", "", 0⟩]

def nested : FolderTree :=
  ⟨[.folder "a" "a" [.folder "a/b" "b" [.file "c" ⟨"a/b/c", "", 0⟩], .file "d" ⟨"a/d", "", 2⟩],
    .file "e" ⟨"e", "", 0⟩], ["root", "a", "a/b", "a/b/c", "a/d", "e"]⟩

theorem build_nestedFiles : build nestedFiles = .ok nested := rfl

theorem wellFormed_nested : nested.WellFormed :=
  (wellFormed_build build_nestedFiles).1

end FolderTree

end Foldergram
