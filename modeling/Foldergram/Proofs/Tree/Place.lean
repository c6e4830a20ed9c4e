import Foldergram.Tree.Basic
import Mathlib.Data.List.Basic

/-!
Places in a folder tree: an item together with the folders around it. A place is reached from the top
by going into one folder after another.
-/

namespace Foldergram.Item

variable {top x y : Item} {id name : String} {contents items : List Item} {chain rest : List String}

@[elab_as_elim, induction_eliminator]
theorem induction {motive : Item → Prop}
    (file : ∀ name source, motive (.file name source))
    (folder : ∀ id name contents, (∀ x ∈ contents, motive x) → motive (.folder id name contents))
    (item : Item) : motive item :=
  @Item.rec motive (fun items => ∀ x ∈ items, motive x) file folder
    (by simp) (fun _ _ hx hxs => by simpa using ⟨hx, hxs⟩) item

@[simp] theorem id_file (name : String) (source : SourceFile) : (file name source).id = source.id := rfl

@[simp] theorem id_folder (id name : String) (contents : List Item) :
    (folder id name contents).id = id := rfl

@[simp] theorem name_file (name : String) (source : SourceFile) : (file name source).name = name := rfl

@[simp] theorem name_folder (id name : String) (contents : List Item) :
    (folder id name contents).name = name := rfl

@[simp] theorem isFolder_file (name : String) (source : SourceFile) :
    (file name source).isFolder = false := rfl

@[simp] theorem isFolder_folder (id name : String) (contents : List Item) :
    (folder id name contents).isFolder = true := rfl

theorem allOf_eq_flatMap (items : List Item) : allOf items = items.flatMap all := by
  induction items with
  | nil => rfl
  | cons x items ih => simp [allOf, ih]

@[simp] theorem all_file (name : String) (source : SourceFile) :
    (file name source).all = [.file name source] := rfl

@[simp] theorem all_folder (id name : String) (contents : List Item) :
    (folder id name contents).all = .folder id name contents :: contents.flatMap all := by
  rw [all, allOf_eq_flatMap]

theorem mem_all_self (x : Item) : x ∈ x.all := by
  cases x <;> simp

theorem mem_all_trans (hx : x ∈ y.all) (hy : y ∈ top.all) : x ∈ top.all := by
  induction top with
  | file name source => simp_all
  | folder id name contents ih =>
    rw [all_folder, List.mem_cons] at hy
    rcases hy with rfl | hy
    · exact hx
    · obtain ⟨z, hz, hy⟩ := List.mem_flatMap.mp hy
      rw [all_folder]
      exact List.mem_cons_of_mem _ (List.mem_flatMap.mpr ⟨z, hz, ih z hz hy⟩)

theorem contents_mem_all (hm : .folder id name contents ∈ top.all) : ∀ x ∈ contents, x ∈ top.all := by
  intro x hx
  refine mem_all_trans ?_ hm
  rw [all_folder]
  exact List.mem_cons_of_mem _ (List.mem_flatMap.mpr ⟨x, hx, mem_all_self x⟩)

/-- An item below `top` and the ids of the folders around it, innermost first and `top` last. -/
inductive Place (top : Item) : Item → List String → Prop
  | here : Place top top []
  | inside {x : Item} {id name : String} {contents : List Item} {chain : List String} :
      Place top (.folder id name contents) chain → x ∈ contents → Place top x (id :: chain)

namespace Place

theorem mem_all (h : top.Place x chain) : x ∈ top.all := by
  induction h with
  | here => exact mem_all_self top
  | @inside x id name contents _ _ hx ih =>
    refine mem_all_trans ?_ ih
    rw [all_folder]
    exact List.mem_cons_of_mem _ (List.mem_flatMap.mpr ⟨x, hx, mem_all_self x⟩)

/-- A place inside an item is a place inside the folder around that item. -/
theorem under (hy : y ∈ contents) (h : y.Place x chain) :
    (Item.folder id name contents).Place x (chain ++ [id]) := by
  induction h with
  | here => exact .inside .here hy
  | inside _ hx ih => exact .inside ih hx

/-- A place inside an item, seen from further out. -/
theorem trans (h : y.Place x rest) (hy : top.Place y chain) : top.Place x (rest ++ chain) := by
  induction h with
  | here => exact hy
  | inside _ hx ih => exact .inside ih hx

/-- Read from the top: a place is the top itself, or lies in one of the items directly in it. -/
theorem from_top (h : top.Place x chain) :
    (x = top ∧ chain = []) ∨
      ∃ y ∈ top.contents, ∃ inner, y.Place x inner ∧ chain = inner ++ [top.id] := by
  induction h with
  | here => exact Or.inl ⟨rfl, rfl⟩
  | @inside x id name contents chain _ hx ih =>
    right
    rcases ih with ⟨rfl, rfl⟩ | ⟨y, hy, inner, hp, rfl⟩
    · exact ⟨x, hx, [], .here, rfl⟩
    · exact ⟨y, hy, id :: inner, .inside hp hx, rfl⟩

theorem eq_top (h : top.Place x []) : x = top := by
  cases h
  rfl

/-- The innermost folder around a place is itself a place, and holds the item. -/
theorem out (h : top.Place x (id :: chain)) : ∃ name contents,
    top.Place (.folder id name contents) chain ∧ x ∈ contents := by
  cases h with
  | inside h hx => exact ⟨_, _, h, hx⟩

/-- Each folder around a place has its own place, with the folders further out around it, and the way in
goes on from there. -/
theorem through {inner : List String} (h : top.Place x (inner ++ id :: chain)) : ∃ name contents,
    top.Place (.folder id name contents) chain ∧ (Item.folder id name contents).Place x (inner ++ [id]) := by
  induction inner generalizing x with
  | nil =>
    obtain ⟨name, contents, hp, hx⟩ := h.out
    exact ⟨name, contents, hp, .inside .here hx⟩
  | cons p inner ih =>
    obtain ⟨_, _, hp, hx⟩ := Place.out h
    obtain ⟨name, contents, hf, hin⟩ := ih hp
    exact ⟨name, contents, hf, .inside hin hx⟩

theorem outwards {inner : List String} (h : top.Place x (inner ++ id :: chain)) : ∃ name contents,
    top.Place (.folder id name contents) chain := by
  obtain ⟨name, contents, hp, -⟩ := h.through
  exact ⟨name, contents, hp⟩

end Place

theorem mem_all_iff : x ∈ top.all ↔ ∃ chain, top.Place x chain := by
  constructor
  · intro h
    induction top with
    | file name source =>
      rw [all_file, List.mem_singleton] at h
      exact ⟨[], h ▸ .here⟩
    | folder id name contents ih =>
      rw [all_folder, List.mem_cons] at h
      rcases h with rfl | h
      · exact ⟨[], .here⟩
      · obtain ⟨y, hy, hx⟩ := List.mem_flatMap.mp h
        obtain ⟨chain, hp⟩ := ih y hy hx
        exact ⟨chain ++ [id], hp.under hy⟩
  · rintro ⟨chain, h⟩
    exact h.mem_all

end Foldergram.Item
