import Foldergram.Projection.Visibility
import Foldergram.Proofs.Tree.Ancestry
import Foldergram.Proofs.Tree.Build
import Foldergram.Proofs.Tree.Display
import Mathlib.Data.List.Flatten

/-!
Visibility from above and from below. Going down meets exactly the items whose folders are all open;
going up from any item ends at the innermost of them.
-/

namespace Foldergram

variable {f : Folding} {id : String}

@[simp] theorem Folding.isExpanded_eq_false : f.isExpanded id = false ↔ f.isCollapsed id = true := by
  simp [Folding.isExpanded]

namespace Item

variable {x y : Item} {folder above : Option String} {items : List Item}

theorem visibleOf_eq_flatMap (f : Folding) (folder : Option String) (items : List Item) :
    visibleOf f folder items = items.flatMap (visible f folder) := by
  induction items with
  | nil => rfl
  | cons x items ih => simp [visibleOf, ih]

@[simp] theorem visible_file (name : String) (source : SourceFile) :
    (file name source).visible f above = [(.file name source, above)] := rfl

@[simp] theorem visible_folder (id name : String) (contents : List Item) :
    (Item.folder id name contents).visible f above = (.folder id name contents, above) ::
      if f.isExpanded id then contents.flatMap (visible f (some id)) else [] := by
  rw [visible, visibleOf_eq_flatMap]

theorem visible_sublist (f : Folding) (above : Option String) (x : Item) :
    ((x.visible f above).map Prod.fst).Sublist x.all := by
  induction x generalizing above with
  | file name source => simp
  | folder id name contents ih =>
    rw [visible_folder, all_folder, List.map_cons]
    refine List.Sublist.cons_cons _ ?_
    split
    · rw [List.map_flatMap]
      exact List.Sublist.flatMap_right contents (fun x hx => ih x hx (some id))
    · simp

/-- Seen from above: an item is visible if every folder around it, up to the top, is open. -/
theorem mem_visible_iff : (y, folder) ∈ x.visible f above ↔
    ∃ chain, x.Place y chain ∧ (∀ p ∈ chain, f.isExpanded p = true) ∧
      folder = chain.head?.or above := by
  induction x generalizing above with
  | file name source =>
    simp only [visible_file, List.mem_singleton, Prod.mk.injEq]
    constructor
    · rintro ⟨rfl, rfl⟩
      exact ⟨[], .here, by simp, rfl⟩
    · rintro ⟨chain, hp, -, rfl⟩
      rcases hp.from_top with ⟨rfl, rfl⟩ | ⟨z, hz, _⟩
      · exact ⟨rfl, rfl⟩
      · simp [contents] at hz
  | folder id name contents ih =>
    rw [visible_folder, List.mem_cons]
    constructor
    · rintro (he | hm)
      · obtain ⟨rfl, rfl⟩ := Prod.mk.inj he
        exact ⟨[], .here, by simp, rfl⟩
      · split at hm
        · rename_i hopen
          obtain ⟨z, hz, hm⟩ := List.mem_flatMap.mp hm
          obtain ⟨chain, hp, hall, rfl⟩ := (ih z hz).mp hm
          refine ⟨chain ++ [id], hp.under hz, ?_, by cases chain <;> rfl⟩
          intro p hpm
          rcases List.mem_append.mp hpm with hpm | hpm
          · exact hall p hpm
          · exact List.mem_singleton.mp hpm ▸ hopen
        · simp at hm
    · rintro ⟨chain, hp, hall, rfl⟩
      rcases hp.from_top with ⟨rfl, rfl⟩ | ⟨z, hz, inner, hin, rfl⟩
      · exact Or.inl rfl
      · have hopen : f.isExpanded id = true := hall id (by simp)
        rw [if_pos hopen]
        refine Or.inr (List.mem_flatMap.mpr ⟨z, hz, (ih z hz).mpr ⟨inner, hin, ?_, ?_⟩⟩)
        · exact fun p hpm => hall p (List.mem_append_left _ hpm)
        · cases inner <;> rfl

end Item

/-- Seen from below: either all folders passed are open and the walk stays at its start, or it ends at
the last closed folder, behind which all are open. -/
theorem visibleAncestor_cases (links : List Link) (f : Folding) (id : String) :
    (visibleAncestor links f id = id ∧ ∀ p ∈ climb links id, f.isExpanded p = true) ∨
      ∃ pre post, climb links id = pre ++ visibleAncestor links f id :: post ∧
        f.isCollapsed (visibleAncestor links f id) = true ∧ ∀ p ∈ post, f.isExpanded p = true := by
  unfold visibleAncestor
  generalize climb links id = chain
  induction chain generalizing id with
  | nil => exact Or.inl ⟨rfl, by simp⟩
  | cons p chain ih =>
    rw [List.foldl_cons]
    rcases ih (if f.isCollapsed p then p else id) with ⟨he, hall⟩ | ⟨pre, post, hc, hclosed, hall⟩
    · rw [he]
      by_cases hp : f.isCollapsed p = true
      · rw [if_pos hp]
        exact Or.inr ⟨[], chain, rfl, hp, hall⟩
      · rw [if_neg hp]
        refine Or.inl ⟨rfl, ?_⟩
        rintro q (_ | ⟨_, hq⟩)
        · simpa [Folding.isExpanded] using hp
        · exact hall q hq
    · exact Or.inr ⟨p :: pre, post, by rw [List.cons_append, ← hc], hclosed, hall⟩

namespace FolderTree

variable {t : FolderTree}

/-- The item is in the tree, and all folders around it are open. -/
def Shows (t : FolderTree) (f : Folding) (id : String) : Prop :=
  id ∈ t.items.map Item.id ∧ ∀ p ∈ t.ancestors id, f.isExpanded p = true

theorem WellFormed.shows_rootId (h : t.WellFormed) : t.Shows f rootId := by
  refine ⟨List.mem_map_of_mem (Item.mem_all_self t.root), ?_⟩
  simp [h.ancestors_rootId]

theorem Shows.eq_rootId_or_parent (hs : t.Shows f id) (h : t.WellFormed) :
    id = rootId ∨ ∃ p, t.parent? id = some p ∧ t.ancestors id = p :: t.ancestors p ∧
      t.Shows f p ∧ f.isExpanded p = true := by
  obtain ⟨hid, hall⟩ := hs
  obtain ⟨x, rfl, hp⟩ := h.exists_place hid
  cases hc : t.ancestors x.id with
  | nil =>
    rw [hc] at hp
    exact Or.inl (congrArg Item.id hp.eq_top)
  | cons p chain =>
    rw [hc] at hp hall
    have hparent := h.parent?_eq hp
    have hc' : t.ancestors x.id = [] ++ p :: chain := hc
    obtain ⟨hm, rfl⟩ := h.ancestors_outwards hid hc'
    exact Or.inr ⟨p, hparent, rfl, ⟨hm, fun q hq => hall q (List.mem_cons_of_mem _ hq)⟩,
      hall p (List.mem_cons_self ..)⟩

/-- What holds of the root, and of a visible item once it holds of the folder around it, holds of all
visible items. -/
@[elab_as_elim]
theorem Shows.induction (h : t.WellFormed) {motive : (id : String) → t.Shows f id → Prop}
    (root : motive rootId h.shows_rootId)
    (inside : ∀ id p (hs : t.Shows f id) (hsp : t.Shows f p), t.parent? id = some p →
      t.ancestors id = p :: t.ancestors p → motive p hsp → motive id hs)
    {id : String} (hs : t.Shows f id) : motive id hs := by
  generalize hn : (t.ancestors id).length = n
  induction n generalizing id with
  | zero =>
    rcases hs.eq_rootId_or_parent h with rfl | ⟨p, -, ha, -⟩
    · exact root
    · simp [ha] at hn
  | succ n ih =>
    rcases hs.eq_rootId_or_parent h with rfl | ⟨p, hp, ha, hsp, -⟩
    · exact root
    · exact inside id p hs hsp hp ha (ih hsp (by simpa [ha] using hn))

theorem Shows.of_mem_ancestors (hs : t.Shows f id) (h : t.WellFormed) {q : String}
    (hq : q ∈ t.ancestors id) : t.Shows f q := by
  induction hs using Shows.induction h with
  | root => simp [h.ancestors_rootId] at hq
  | inside id p _ hsp _ ha ih =>
    rcases List.mem_cons.mp (ha ▸ hq) with rfl | hq
    · exact hsp
    · exact ih hq

theorem Shows.eq_rootId_or_rootId_mem (hs : t.Shows f id) (h : t.WellFormed) :
    id = rootId ∨ rootId ∈ t.ancestors id := by
  induction hs using Shows.induction h with
  | root => exact Or.inl rfl
  | inside id p _ _ _ ha ih =>
    rw [ha, List.mem_cons]
    rcases ih with rfl | ih
    · exact Or.inr (Or.inl rfl)
    · exact Or.inr (Or.inr ih)

/-- Of the items directly in a folder around a visible item, one is that item or lies around it too. -/
theorem Shows.exists_child_towards (hs : t.Shows f id) (h : t.WellFormed) {p : String}
    (hp : p ∈ t.ancestors id) : ∃ k, k ∈ id :: t.ancestors id ∧ t.Shows f k ∧
      t.parent? k = some p ∧ t.ancestors k = p :: t.ancestors p := by
  induction hs using Shows.induction h with
  | root => simp [h.ancestors_rootId] at hp
  | inside id q hs _ hq ha ih =>
    rcases List.mem_cons.mp (ha ▸ hp) with rfl | hp
    · exact ⟨id, List.mem_cons_self .., hs, hq, ha⟩
    · obtain ⟨k, hk, hsk⟩ := ih hp
      exact ⟨k, ha ▸ List.mem_cons_of_mem _ hk, hsk⟩

/-- The ids of the visible items, in display order. -/
def visibleIds (t : FolderTree) (f : Folding) : List String :=
  (t.visible f).map (·.1.id)

theorem WellFormed.mem_visibleIds (h : t.WellFormed) : id ∈ t.visibleIds f ↔ t.Shows f id := by
  constructor
  · intro hm
    obtain ⟨⟨y, folder⟩, hv, rfl⟩ := List.mem_map.mp hm
    obtain ⟨chain, hp, hall, -⟩ := Item.mem_visible_iff.mp hv
    obtain ⟨x, hx, rfl⟩ := hp.of_display
    simp only [Item.id_display]
    exact ⟨List.mem_map_of_mem hx.mem_all, h.ancestors_eq hx ▸ hall⟩
  · rintro ⟨hid, hall⟩
    obtain ⟨x, rfl, hp⟩ := h.exists_place hid
    refine List.mem_map.mpr ⟨(x.display, _), Item.mem_visible_iff.mpr ⟨_, hp.display, hall, rfl⟩, ?_⟩
    exact Item.id_display x

theorem WellFormed.visibleIds_nodup (h : t.WellFormed) (f : Folding) : (t.visibleIds f).Nodup := by
  have hs := (Item.visible_sublist f none t.root.display).map Item.id
  rw [List.map_map] at hs
  exact hs.nodup ((Item.ids_display_perm t.root).nodup_iff.mpr h.ids_nodup)

end FolderTree

end Foldergram
