import Foldergram.Proofs.Path.Prefixes
import Foldergram.Proofs.Tree.Build
import Mathlib.Data.List.Find
import Mathlib.Data.List.Pairwise

/-!
Which files cannot be built into a tree, and which id the failure names. Both are read off the ids, without
the tree that has grown so far.
-/

namespace Foldergram

open Foldergram.Path Item

variable {id name p : String} {source : SourceFile} {folder : Option String} {above : List String}
  {items : List Item} {files earlier : List SourceFile} {e : Collision}

/-- No id repeats, goes on below another one, or is the root's id or below it. -/
structure Compatible (files : List SourceFile) : Prop where
  distinct : (files.map (·.id)).Nodup
  apart : ∀ a ∈ files, ∀ b ∈ files, ¬ (a.id ++ "/").toList <+: b.id.toList
  rootFree : ∀ a ∈ files, a.id ≠ rootId ∧ ¬ (rootId ++ "/").toList <+: a.id.toList

/-- An id that no folder can have: the root's, or that of a file. -/
def Taken (files : List SourceFile) (id : String) : Prop :=
  id = rootId ∨ id ∈ files.map (·.id)

instance : DecidablePred (Taken files) :=
  fun _ => inferInstanceAs (Decidable (_ ∨ _))

/-- The id to blame when a file cannot follow earlier ones: the shortest id on its path that is taken, or
its own id if none is. -/
def Blames (earlier : List SourceFile) (id blamed : String) : Prop :=
  (Taken earlier blamed ∧ (blamed ++ "/").toList <+: id.toList ∧
    ∀ p, Taken earlier p → (p ++ "/").toList <+: id.toList → blamed.length ≤ p.length) ∨
  (blamed = id ∧ ∀ p, Taken earlier p → ¬ (p ++ "/").toList <+: id.toList)

theorem apart_iff {a b : String} : Apart a b ↔
    a ≠ b ∧ ¬ (a ++ "/").toList <+: b.toList ∧ ¬ (b ++ "/").toList <+: a.toList := by
  rw [Apart, isPrefix_segments_iff, isPrefix_segments_iff, not_or, not_or]
  constructor
  · rintro ⟨⟨hne, hab⟩, -, hba⟩
    exact ⟨hne, hab, hba⟩
  · rintro ⟨hne, hab, hba⟩
    exact ⟨⟨hne, hab⟩, hne.symm, hba⟩

theorem rootId_isPrefix_iff : [rootId] <+: segments id ↔
    id = rootId ∨ (rootId ++ "/").toList <+: id.toList := by
  have hroot : segments rootId = [rootId] := segments_of_no_slash (by decide)
  rw [← hroot, isPrefix_segments_iff, eq_comm]

theorem compatible_iff : Compatible files ↔
    (∀ file ∈ files, ¬ [rootId] <+: segments file.id) ∧
      files.Pairwise (fun a b => Apart a.id b.id) := by
  simp only [rootId_isPrefix_iff, apart_iff, not_or]
  constructor
  · rintro ⟨hd, hap, hroot⟩
    rw [List.Nodup, List.pairwise_map] at hd
    have hpw : files.Pairwise fun a b =>
        ¬ (a.id ++ "/").toList <+: b.id.toList ∧ ¬ (b.id ++ "/").toList <+: a.id.toList :=
      List.pairwise_of_forall_mem_list fun a ha b hb => ⟨hap a ha b hb, hap b hb a ha⟩
    exact ⟨hroot, hd.and hpw⟩
  · rintro ⟨hroot, hpw⟩
    refine ⟨?_, ?_, hroot⟩
    · rw [List.Nodup, List.pairwise_map]
      exact hpw.imp fun h => h.1
    · have hsymm : Std.Symm fun a b : SourceFile =>
          ¬ (a.id ++ "/").toList <+: b.id.toList ∧ ¬ (b.id ++ "/").toList <+: a.id.toList :=
        ⟨fun _ _ h => ⟨h.2, h.1⟩⟩
      have hall := List.Pairwise.forall_of_forall
        (fun a _ => ⟨not_slash_isPrefix_self a.id, not_slash_isPrefix_self a.id⟩)
        (hpw.imp fun h => h.2)
      exact fun a ha b hb => (hall ha hb).1

/-- A file whose id goes through `id` lies below the sibling of that id. -/
theorem Item.Siblings.mem_files_iff (h : Siblings above items) (hid : segments id = above ++ [name])
    (hp : segments id <+: segments p) : p ∈ (items.flatMap Item.files).map (·.id) ↔
      ∃ x ∈ items, x.id = id ∧ p ∈ x.files.map (·.id) := by
  rw [List.map_flatMap]
  refine h.mem_flatMap_iff ?_ hid hp
  intro x p hm
  obtain ⟨file, hf, rfl⟩ := List.mem_map.mp hm
  obtain ⟨name, hy⟩ := Item.mem_files.mp hf
  exact List.mem_map.mpr ⟨_, hy, rfl⟩

/-- The first id of a path that is taken. -/
def firstTaken (files : List SourceFile) (path : List String) : Option String :=
  path.find? (Taken files ·)

/-- Past a folder that is free, the files in the folder decide which id is taken first. -/
theorem firstTaken_below {inner : List Item} {path : List String} (hroot : id ≠ rootId)
    (hin : Siblings (segments id) inner)
    (hsame : ∀ p, segments id <+: segments p →
      (p ∈ (items.flatMap Item.files).map (·.id) ↔ p ∈ (inner.flatMap Item.files).map (·.id)))
    (hpath : ∀ p ∈ path, segments id <+: segments p) :
    firstTaken (items.flatMap Item.files) (id :: path) = firstTaken (inner.flatMap Item.files) path := by
  have hfree : ¬ Taken (items.flatMap Item.files) id := by
    rintro (he | hm)
    · exact hroot he
    · exact hin.id_not_mem_files ((hsame id List.prefix_rfl).mp hm)
  rw [firstTaken, List.find?_cons_of_neg (by simpa using hfree)]
  apply List.find?_congr
  intro p hp
  rw [decide_eq_decide]
  exact or_congr_right (hsame p (hpath p hp))

/-- The first taken id on the path of a file ends its insertion; by induction on the names ahead. -/
theorem growPath_error {rest : List String} (hs : Siblings (segmentsOf folder) items)
    (hseg : segments source.id = segmentsOf folder ++ name :: rest)
    (h : growPath source folder (name :: rest) items = .error e) :
    e.id = (firstTaken (items.flatMap Item.files)
      (trail folder (name :: rest)).dropLast).getD source.id := by
  induction rest generalizing folder name items with
  | nil =>
    rw [growPath_last] at h
    split at h <;> cases h
    rfl
  | cons next rest ih =>
    have hid := segments_child_of_ahead hseg
    have hseg' := segments_ahead hseg
    have hpath : ∀ p ∈ (trail (some (child folder name)) (next :: rest)).dropLast,
        segments (child folder name) <+: segments p :=
      fun p hp => isPrefix_segments_iff.mpr
        (Or.inr (slash_of_mem_trail hseg' (List.mem_of_mem_dropLast hp)))
    have htrail : (trail folder (name :: next :: rest)).dropLast =
        child folder name :: (trail (some (child folder name)) (next :: rest)).dropLast := rfl
    rw [htrail]
    rcases growPath_step_cases hs source folder name next rest with ⟨hroot, hg⟩ | ⟨hroot,
      ⟨name', source', hm, hx, hg⟩ | ⟨pre, name', contents, post, rfl, hg⟩ | ⟨hnew, hg⟩⟩ <;>
      rw [h] at hg
    · cases hg
      rw [firstTaken, List.find?_cons_of_pos (by simp [Taken, hroot])]
      rfl
    · cases hg
      have htaken : Taken (items.flatMap Item.files) (child folder name) :=
        Or.inr (hx ▸ List.mem_map_of_mem (List.mem_flatMap.mpr ⟨_, hm, by simp⟩))
      rw [firstTaken, List.find?_cons_of_pos (by simpa using htaken)]
      rfl
    · rw [firstTaken_below hroot hs.inside ?_ hpath]
      · exact ih hs.inside hseg' (map_eq_error.mp hg.symm)
      · intro p hp
        rw [hs.mem_files_iff hid hp, ← files_folder (child folder name) name' contents]
        constructor
        · rintro ⟨x, hx, he, hm⟩
          obtain rfl : x = .folder (child folder name) name' contents :=
            hs.eq_of_id_eq hx (by simp) he
          exact hm
        · intro hm
          exact ⟨_, by simp, rfl, hm⟩
    · have hnil : Siblings (segments (child folder name)) [] := .nil
      rw [firstTaken_below hroot hnil ?_ hpath]
      · exact ih hnil hseg' (map_eq_error.mp hg.symm)
      · intro p hp
        rw [hs.mem_files_iff hid hp]
        constructor
        · rintro ⟨x, hx, he, -⟩
          exact absurd he (hnew x hx)
        · simp

theorem Taken.of_perm {files files' : List SourceFile} (h : files.Perm files') :
    Taken files p ↔ Taken files' p :=
  or_congr_right (h.map (·.id)).mem_iff

theorem blames_firstTaken (files : List SourceFile) (id : String) :
    Blames files id ((firstTaken files (prefixesOf (folder? id))).getD id) := by
  cases hf : firstTaken files (prefixesOf (folder? id)) with
  | none =>
    refine Or.inr ⟨rfl, ?_⟩
    intro p htaken hp
    have hnone := List.find?_eq_none.mp hf p (mem_prefixesOf_folder?.mpr hp)
    exact hnone (by simpa using htaken)
  | some q =>
    obtain ⟨hq, before, behind, hsplit, hbefore⟩ := List.find?_eq_some_iff_append.mp hf
    have hpw : (prefixesOf (folder? id)).Pairwise fun p q => (p ++ "/").toList <+: q.toList := by
      have hall := pairwise_prefixes id
      rw [prefixes_eq, List.pairwise_append] at hall
      exact hall.1
    refine Or.inl ⟨by simpa using hq, mem_prefixesOf_folder?.mp (by simp [hsplit]), ?_⟩
    intro p htaken hp
    have hm := mem_prefixesOf_folder?.mpr hp
    rw [hsplit] at hm hpw
    rcases List.mem_append.mp hm with hm | hm
    · exact absurd htaken (by simpa using hbefore p hm)
    · rcases List.mem_cons.mp hm with rfl | hm
      · exact Nat.le_refl _
      · have hle := ((List.pairwise_cons.mp (List.pairwise_append.mp hpw).2.1).1 p hm).length_le
        rw [String.toList_append, List.length_append, String.length_toList, String.length_toList] at hle
        exact Nat.le_of_add_right_le hle

theorem Blames.unique {q : String} (hp : Blames earlier id p) (hq : Blames earlier id q) : p = q := by
  rcases hp with ⟨htp, hp, hminp⟩ | ⟨rfl, hfree⟩ <;> rcases hq with ⟨htq, hq, hminq⟩ | ⟨rfl, hfree'⟩
  · have hlen : p.toList.length = q.toList.length := by
      have h1 := hminp q htq hq
      have h2 := hminq p htp hp
      rw [String.length_toList, String.length_toList]
      omega
    rw [String.toList_append] at hp hq
    have hp' := (List.prefix_append _ _).trans hp
    have hq' := (List.prefix_append _ _).trans hq
    exact String.toList_inj.mp
      ((List.prefix_of_prefix_length_le hp' hq' (Nat.le_of_eq hlen)).eq_of_length hlen)
  · exact absurd hp (hfree' p htp)
  · exact absurd hq (hfree q htq)
  · rfl

namespace FolderTree

variable {t : FolderTree}

theorem insert_eq (t : FolderTree) (source : SourceFile) :
    t.insert source = (growPath source none (segments source.id) t.contents).map fun g =>
      ⟨g.items, t.created ++ g.created⟩ := by
  rw [insert]
  cases growPath source none (segments source.id) t.contents <;> rfl

theorem blames_of_insert_error (ht : t.WellFormed) (h : t.insert source = .error e) :
    Blames t.files source.id e.id := by
  obtain ⟨name, rest, hseg⟩ := exists_ahead source
  have hahead : segments source.id = segmentsOf none ++ name :: rest := hseg
  rw [insert_eq, map_eq_error, hseg] at h
  have hs : Siblings (segmentsOf none) t.contents := ht.siblings
  have he := growPath_error hs hahead h
  rw [← hseg, trail_segments, prefixes_eq, List.dropLast_concat] at he
  rw [he]
  exact blames_firstTaken ..

theorem build_isOk_iff_compatible : (∃ t, build files = .ok t) ↔ Compatible files := by
  rw [build_isOk_iff, compatible_iff]

/-- A failing build stops at one file, behind files that could be built. -/
theorem build_eq_error (h : build files = .error e) : ∃ earlier file later t,
    files = earlier ++ file :: later ∧ build earlier = .ok t ∧ t.insert file = .error e := by
  induction files using List.reverseRecOn with
  | nil => cases h
  | append_singleton files file ih =>
    rw [build_concat] at h
    cases hb : build files with
    | error e' =>
      rw [hb] at h
      cases h
      obtain ⟨earlier, first, later, t, rfl, ht, hi⟩ := ih hb
      exact ⟨earlier, first, later ++ [file], t, by simp, ht, hi⟩
    | ok t =>
      rw [hb] at h
      exact ⟨files, file, [], t, rfl, hb, h⟩

theorem build_append_of_error (h : build files = .error e) (later : List SourceFile) :
    build (files ++ later) = .error e := by
  rw [build] at h ⊢
  rw [List.foldlM_append, h]
  rfl

/-- The next file after a successful build is refused exactly if it breaks the rule. -/
theorem insert_eq_error_iff (hb : build earlier = .ok t) : t.insert source = .error e ↔
    ¬ Compatible (earlier ++ [source]) ∧ Blames earlier source.id e.id := by
  obtain ⟨hwf, hperm⟩ := wellFormed_build hb
  have hnext : build (earlier ++ [source]) = t.insert source := by
    rw [build_concat, hb]
    rfl
  have hblames : ∀ {e}, t.insert source = .error e → Blames earlier source.id e.id := by
    intro e h
    have hblames := blames_of_insert_error hwf h
    simpa only [Blames, Taken.of_perm hperm] using hblames
  rw [← build_isOk_iff_compatible, hnext]
  constructor
  · intro h
    refine ⟨?_, hblames h⟩
    rintro ⟨t', ht'⟩
    rw [h] at ht'
    cases ht'
  · rintro ⟨hnot, he⟩
    cases h : t.insert source with
    | ok t' => exact absurd ⟨t', h⟩ hnot
    | error e' =>
      exact congrArg (fun id => Except.error (Collision.mk id)) ((hblames h).unique he)

end FolderTree

/-- Files can be built into a tree exactly if no id repeats, goes on below another one, or is the root's id
or below it. Otherwise the build fails at the first file that breaks this rule, and the failure names the
shortest id on the path of this file that is the root's or an earlier file's, or else the file's own id. -/
theorem build_fails_at_first_clash (files : List SourceFile) :
    ((∃ t, FolderTree.build files = .ok t) ↔ Compatible files) ∧
    ∀ e, FolderTree.build files = .error e ↔ ∃ earlier file later,
      files = earlier ++ file :: later ∧ Compatible earlier ∧ ¬ Compatible (earlier ++ [file]) ∧
        Blames earlier file.id e.id := by
  refine ⟨FolderTree.build_isOk_iff_compatible, ?_⟩
  intro e
  constructor
  · intro h
    obtain ⟨earlier, file, later, t, rfl, ht, hi⟩ := FolderTree.build_eq_error h
    obtain ⟨hnot, hblames⟩ := (FolderTree.insert_eq_error_iff ht).mp hi
    exact ⟨earlier, file, later, rfl, FolderTree.build_isOk_iff_compatible.mp ⟨t, ht⟩, hnot, hblames⟩
  · rintro ⟨earlier, file, later, rfl, hok, hclash⟩
    obtain ⟨t, ht⟩ := FolderTree.build_isOk_iff_compatible.mpr hok
    have hb : FolderTree.build (earlier ++ [file]) = .error e := by
      rw [FolderTree.build_concat, ht]
      exact (FolderTree.insert_eq_error_iff ht).mpr hclash
    rw [List.append_cons]
    exact FolderTree.build_append_of_error hb later

/-- An empty first segment is a folder like any other, so a later file may not take its id. -/
example : FolderTree.build [⟨"/a", "", 0⟩, ⟨"b", "", 0⟩, ⟨"", "", 0⟩] = .error ⟨""⟩ := rfl

end Foldergram
