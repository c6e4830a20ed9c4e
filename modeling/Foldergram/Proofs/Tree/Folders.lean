import Foldergram.Proofs.Tree.Alike
import Foldergram.Proofs.Tree.PrefixTree

/-!
The folders of a tree and how deep they lie. Each folder is listed once with the length of its path, in the
order of a walk that goes down before it goes on, and on to what was created next.
-/

namespace Foldergram

open Foldergram.Path

variable {t : FolderTree} {x y : Item} {chain : List String} {id a b : String}

/-- How deep an item lies, by its id: the root at the top, and anything else as deep as its path is long. -/
def depthOf (id : String) : Nat :=
  if id = rootId then 0 else (segments id).length

/-- The folders in an item lie as deep below it as there are folders around them. -/
theorem Item.mem_folders_iff {depth d : Nat} : (y, d) ∈ x.folders depth ↔
    y.isFolder = true ∧ ∃ chain, x.Place y chain ∧ d = depth + chain.length := by
  induction x generalizing depth with
  | file name source =>
    simp only [folders_file, List.not_mem_nil, false_iff, not_and, not_exists]
    rintro hfolder chain hp -
    rcases hp.from_top with ⟨rfl, -⟩ | ⟨z, hz, -⟩
    · simp at hfolder
    · simp [contents] at hz
  | folder id name contents ih =>
    rw [folders_folder, List.mem_cons, List.mem_flatMap]
    constructor
    · rintro (he | ⟨z, hz, hm⟩)
      · obtain ⟨rfl, rfl⟩ := Prod.mk.inj he
        exact ⟨rfl, [], .here, rfl⟩
      · obtain ⟨hfolder, chain, hp, rfl⟩ := (ih z hz).mp hm
        refine ⟨hfolder, chain ++ [id], hp.under hz, ?_⟩
        rw [List.length_append, List.length_singleton]
        omega
    · rintro ⟨hfolder, chain, hp, rfl⟩
      rcases hp.from_top with ⟨rfl, rfl⟩ | ⟨z, hz, inner, hin, rfl⟩
      · exact Or.inl rfl
      · refine Or.inr ⟨z, hz, (ih z hz).mpr ⟨hfolder, inner, hin, ?_⟩⟩
        rw [List.length_append, List.length_singleton]
        omega

namespace FolderTree

/-- An item has as many folders around it as its path has segments. -/
theorem WellFormed.length_ancestors (h : t.WellFormed) (hid : id ∈ t.items.map Item.id) :
    (t.ancestors id).length = depthOf id := by
  obtain ⟨x, hx, rfl⟩ := List.mem_map.mp hid
  unfold depthOf
  split
  · rename_i hroot
    rw [hroot, h.ancestors_rootId]
    rfl
  · rename_i hroot
    obtain ⟨-, ha⟩ := h.place_of_ne hx hroot
    have hprefixes := congrArg List.length (prefixes_eq x.id)
    have hpos := List.length_pos_of_ne_nil (segments_ne_nil x.id)
    rw [prefixes, List.length_map, List.length_tail, List.length_inits, List.length_append,
      List.length_singleton] at hprefixes
    rw [ha, List.length_append, List.length_reverse, List.length_singleton]
    omega

theorem WellFormed.mem_folders_iff (h : t.WellFormed) {d : Nat} :
    (x, d) ∈ t.folders ↔ x ∈ t.items ∧ x.isFolder = true ∧ d = depthOf x.id := by
  rw [folders, Item.mem_folders_iff]
  constructor
  · rintro ⟨hfolder, chain, hp, rfl⟩
    refine ⟨hp.mem_all, hfolder, ?_⟩
    rw [← h.length_ancestors (List.mem_map_of_mem hp.mem_all), h.ancestors_eq hp, Nat.zero_add]
  · rintro ⟨hx, hfolder, rfl⟩
    refine ⟨hfolder, t.ancestors x.id, h.mem_items_iff.mp hx, ?_⟩
    rw [h.length_ancestors (List.mem_map_of_mem hx), Nat.zero_add]

/-- A walk from the root meets `a` before `b`: either `a` lies around `b`, or in the folder where the ways to
them part, the way to `a` goes on with what was created first. -/
def Precedes (t : FolderTree) (a b : String) : Prop :=
  a ∈ t.ancestors b ∨ ∃ folder k l, k ∈ a :: t.ancestors a ∧ l ∈ b :: t.ancestors b ∧
    t.parent? k = some folder ∧ t.parent? l = some folder ∧ [k, l].Sublist t.created

/-- What lies in an item has the item and the folders around it among its own. -/
theorem WellFormed.ancestors_of_mem_all (h : t.WellFormed) (hx : t.root.Place x chain) (hy : y ∈ x.all) :
    x.id ∈ y.id :: t.ancestors y.id ∧ ∀ p ∈ chain, p ∈ t.ancestors y.id := by
  obtain ⟨inner, hp⟩ := Item.mem_all_iff.mp hy
  rw [h.ancestors_eq (hp.trans hx)]
  refine ⟨?_, fun p hm => List.mem_append_right _ hm⟩
  rcases hp.from_top with ⟨rfl, -⟩ | ⟨_, -, _, -, rfl⟩
  · exact List.mem_cons_self ..
  · simp

/-- By induction on the item: a folder comes before all that is in it, and one of its items with all in it
before the next one. -/
theorem WellFormed.pairwise_precedes (h : t.WellFormed) (hseq : Sequenced t.created t.contents)
    (hx : t.root.Place x chain) : (x.all.map Item.id).Pairwise t.Precedes := by
  induction x generalizing chain with
  | file name source => simp
  | folder id name contents ih =>
    have hin : ∀ y ∈ contents, t.root.Place y (id :: chain) := fun y hy => .inside hx hy
    rw [Item.all_folder, List.map_cons, List.map_flatMap, List.pairwise_cons, List.pairwise_flatMap]
    refine ⟨?_, fun y hy => ih y hy (hin y hy), ?_⟩
    · intro other hm
      obtain ⟨y, hy, hm⟩ := List.mem_flatMap.mp hm
      obtain ⟨z, hz, rfl⟩ := List.mem_map.mp hm
      exact Or.inl ((h.ancestors_of_mem_all (hin y hy) hz).2 id (List.mem_cons_self ..))
    · rw [List.pairwise_iff_forall_sublist]
      intro y z hyz a ha b hb
      have hy : y ∈ contents := hyz.subset (by simp)
      have hz : z ∈ contents := hyz.subset (by simp)
      obtain ⟨u, hu, rfl⟩ := List.mem_map.mp ha
      obtain ⟨v, hv, rfl⟩ := List.mem_map.mp hb
      have hcreated : [y.id, z.id].Sublist t.created := by
        have hcontents : contents.map Item.id = _ := h.contents_eq hseq hx.mem_all
        exact (hyz.map Item.id).trans (hcontents ▸ List.filter_sublist)
      exact Or.inr ⟨id, y.id, z.id, (h.ancestors_of_mem_all (hin y hy) hu).1,
        (h.ancestors_of_mem_all (hin z hz) hv).1, h.parent?_eq (hin y hy), h.parent?_eq (hin z hz), hcreated⟩

theorem WellFormed.folders_precede (h : t.WellFormed) (hseq : Sequenced t.created t.contents) :
    (t.folders.map (·.1.id)).Pairwise t.Precedes :=
  (h.pairwise_precedes hseq .here).sublist t.ids_folders_sublist

end FolderTree

end Foldergram
