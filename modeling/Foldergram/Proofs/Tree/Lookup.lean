import Foldergram.Proofs.Tree.Ancestry

/-! Finding items by their ids. An id leads to one item, and up from it there is one link. -/

namespace Foldergram

section Keys

variable {α : Type} {key : α → String} {l : List α} {a : α}

/-- Where the values of `key` are all different, a search for one of them finds the only member with it. -/
theorem find?_key_eq_some_iff (hd : (l.map key).Nodup) {k : String} :
    l.find? (key · = k) = some a ↔ a ∈ l ∧ key a = k := by
  constructor
  · intro hf
    exact ⟨List.mem_of_find?_eq_some hf, by simpa using List.find?_some hf⟩
  · rintro ⟨ha, rfl⟩
    cases hf : l.find? (key · = key a) with
    | none =>
      have hnone := List.find?_eq_none.mp hf a ha
      simp at hnone
    | some b =>
      have hb : key b = key a := by simpa using List.find?_some hf
      rw [List.inj_on_of_nodup_map hd (List.mem_of_find?_eq_some hf) ha hb]

theorem filter_key_eq_singleton (hd : (l.map key).Nodup) (ha : a ∈ l) :
    l.filter (key · = key a) = [a] := by
  obtain ⟨pre, post, rfl⟩ := List.append_of_mem ha
  rw [List.map_append, List.map_cons, List.nodup_middle, List.nodup_cons, ← List.map_append] at hd
  have hne : ∀ b ∈ pre ++ post, ¬ decide (key b = key a) = true := by
    intro b hb he
    exact hd.1 (of_decide_eq_true he ▸ List.mem_map_of_mem hb)
  rw [List.filter_append, List.filter_cons_of_pos (by simp),
    List.filter_eq_nil_iff.mpr (fun b hb => hne b (List.mem_append_left _ hb)),
    List.filter_eq_nil_iff.mpr (fun b hb => hne b (List.mem_append_right _ hb)), List.nil_append]

end Keys

namespace FolderTree

variable {t : FolderTree} {x y : Item} {id p : String}

theorem WellFormed.get?_eq_some_iff (h : t.WellFormed) : t.get? id = some x ↔ x ∈ t.items ∧ x.id = id :=
  find?_key_eq_some_iff h.ids_nodup

theorem WellFormed.hasFolder_iff (h : t.WellFormed) :
    t.hasFolder id = true ↔ ∃ x ∈ t.items, x.id = id ∧ x.isFolder = true := by
  rw [hasFolder, Option.any_eq_true]
  simp only [h.get?_eq_some_iff, and_assoc]

/-- The folders around an item are folders of the tree. -/
theorem WellFormed.hasFolder_of_mem_ancestors (h : t.WellFormed) (hid : id ∈ t.items.map Item.id)
    (hp : p ∈ t.ancestors id) : t.hasFolder p = true := by
  obtain ⟨x, rfl, hx⟩ := h.exists_place hid
  obtain ⟨inner, outer, ha⟩ := List.append_of_mem hp
  rw [ha] at hx
  obtain ⟨name, contents, hf⟩ := hx.outwards
  exact h.hasFolder_iff.mpr ⟨_, hf.mem_all, rfl, rfl⟩

theorem WellFormed.link_items_nodup (h : t.WellFormed) : (t.upwardLinks.map (·.item)).Nodup := by
  rw [upwardLinks, List.map_reverse, List.nodup_reverse, Item.map_item_links]
  have hd := h.ids_nodup
  rw [items_eq, List.map_cons] at hd
  exact hd.of_cons

theorem mem_upwardLinks {link : Link} :
    link ∈ t.upwardLinks ↔ ∃ y ∈ t.items, ∃ x ∈ y.contents, link = ⟨x.id, y.id⟩ := by
  rw [upwardLinks, List.mem_reverse]
  exact Item.mem_links_iff

theorem WellFormed.parent?_eq_some_iff (h : t.WellFormed) :
    t.parent? id = some p ↔ ⟨id, p⟩ ∈ t.upwardLinks := by
  rw [parent?, Option.map_eq_some_iff]
  simp only [find?_key_eq_some_iff h.link_items_nodup]
  constructor
  · rintro ⟨link, ⟨hl, rfl⟩, rfl⟩
    exact hl
  · intro hl
    exact ⟨⟨id, p⟩, ⟨hl, rfl⟩, rfl⟩

theorem WellFormed.mem_contents_iff (h : t.WellFormed) (hy : y ∈ t.items) :
    id ∈ y.contents.map Item.id ↔ t.parent? id = some y.id := by
  rw [h.parent?_eq_some_iff, mem_upwardLinks]
  constructor
  · intro hm
    obtain ⟨x, hx, rfl⟩ := List.mem_map.mp hm
    exact ⟨y, hy, x, hx, rfl⟩
  · rintro ⟨z, hz, x, hx, he⟩
    obtain ⟨rfl, hid⟩ := Link.mk.inj he
    rw [List.inj_on_of_nodup_map h.ids_nodup hy hz hid]
    exact List.mem_map_of_mem hx

end FolderTree

end Foldergram
