import Foldergram.Proofs.Tree.WellPlaced
import Foldergram.Tree.Ancestry

/-! Climbing along the links of a tree meets the folders around an item, innermost first. -/

namespace Foldergram

variable {links rest : List Link} {id : String}

theorem climb_append_of_ne (h : ∀ link ∈ links, link.item ≠ id) :
    climb (links ++ rest) id = climb rest id := by
  induction links with
  | nil => rfl
  | cons link links ih =>
    rw [List.cons_append, climb, if_neg (h link (List.mem_cons_self ..))]
    exact ih (fun l hl => h l (List.mem_cons_of_mem _ hl))

/-- The first step of a climb is the parent. -/
theorem head?_climb (links : List Link) (id : String) :
    (climb links id).head? = (links.find? (·.item = id)).map (·.folder) := by
  induction links with
  | nil => rfl
  | cons link links ih =>
    rw [climb, List.find?_cons]
    by_cases h : link.item = id <;> simp [h, ih]

namespace Item

variable {top x y : Item} {items : List Item} {chain : List String} {folder : String}

theorem linksOf_eq_flatMap (folder : String) (items : List Item) :
    linksOf folder items = items.flatMap fun x => ⟨x.id, folder⟩ :: x.links := by
  induction items with
  | nil => rfl
  | cons x items ih => simp [linksOf, ih]

theorem all_eq_cons (x : Item) : x.all = x :: x.contents.flatMap all := by
  cases x <;> simp [contents]

theorem flatMap_contents_subset (x : Item) : x.contents.flatMap all ⊆ x.all := by
  rw [all_eq_cons]
  exact List.subset_cons_self ..

/-- There is one link for each item strictly inside. -/
theorem map_item_links (x : Item) : x.links.map (·.item) = (x.contents.flatMap all).map Item.id := by
  induction x with
  | file name source => rfl
  | folder id name contents ih =>
    rw [links, linksOf_eq_flatMap, Item.contents, List.map_flatMap, List.map_flatMap]
    apply List.flatMap_congr
    intro x hx
    rw [List.map_cons, ih x hx, all_eq_cons x, List.map_cons]

theorem item_mem_of_mem_links {link : Link} (h : link ∈ x.links) :
    link.item ∈ (x.contents.flatMap all).map Item.id :=
  map_item_links x ▸ List.mem_map_of_mem h

/-- Links lead from the contents of a folder to this folder. -/
theorem mem_links_iff {link : Link} :
    link ∈ top.links ↔ ∃ y ∈ top.all, ∃ x ∈ y.contents, link = ⟨x.id, y.id⟩ := by
  induction top with
  | file name source => simp [links, contents]
  | folder id name contents ih =>
    rw [links, linksOf_eq_flatMap, List.mem_flatMap]
    constructor
    · rintro ⟨z, hz, h⟩
      rcases List.mem_cons.mp h with rfl | h
      · exact ⟨_, mem_all_self _, z, hz, rfl⟩
      · obtain ⟨y, hy, x, hx, rfl⟩ := (ih z hz).mp h
        rw [all_folder]
        exact ⟨y, List.mem_cons_of_mem _ (List.mem_flatMap.mpr ⟨z, hz, hy⟩), x, hx, rfl⟩
    · rintro ⟨y, hy, x, hx, rfl⟩
      rw [all_folder, List.mem_cons] at hy
      rcases hy with rfl | hy
      · exact ⟨x, hx, List.mem_cons_self ..⟩
      · obtain ⟨z, hz, hy⟩ := List.mem_flatMap.mp hy
        exact ⟨z, hz, List.mem_cons_of_mem _ ((ih z hz).mpr ⟨y, hy, x, hx, rfl⟩)⟩

theorem item_mem_of_mem_linksOf {link : Link} (h : link ∈ linksOf folder items) :
    link.item ∈ (items.flatMap all).map Item.id :=
  item_mem_of_mem_links (x := .folder folder "" items) h

/-- Climbing out of one of several items leads to the folder that holds them. -/
theorem climb_linksOf (hd : (folder :: (items.flatMap all).map Item.id).Nodup)
    (ih : ∀ y ∈ items, ∀ x chain rest, y.Place x chain →
      climb (y.links.reverse ++ rest) x.id = chain ++ climb rest y.id)
    (hy : y ∈ items) (hp : y.Place x chain) (rest : List Link) :
    climb ((linksOf folder items).reverse ++ rest) x.id = chain ++ folder :: climb rest folder := by
  induction items generalizing rest with
  | nil => simp at hy
  | cons z items ihl =>
    simp only [List.flatMap_cons, List.map_append, List.nodup_cons, List.mem_append, not_or,
      List.nodup_append] at hd
    obtain ⟨⟨hz, hitems⟩, hdz, hdi, hdisj⟩ := hd
    have hrest : (linksOf folder (z :: items)).reverse ++ rest =
        (linksOf folder items).reverse ++ (z.links.reverse ++ (⟨z.id, folder⟩ :: rest)) := by
      simp [linksOf]
    rw [hrest]
    rcases List.mem_cons.mp hy with rfl | hy
    · have hskip : ∀ link ∈ (linksOf folder items).reverse, link.item ≠ x.id := by
        intro link hl he
        have hi := item_mem_of_mem_linksOf (List.mem_reverse.mp hl)
        exact hdisj x.id (List.mem_map_of_mem hp.mem_all) link.item hi he.symm
      rw [climb_append_of_ne hskip, ih y (List.mem_cons_self ..) x chain _ hp, climb, if_pos rfl]
    · have hskip : ∀ link ∈ z.links.reverse ++ [⟨z.id, folder⟩], link.item ≠ folder := by
        intro link hl he
        rcases List.mem_append.mp hl with hl | hl
        · have hi := item_mem_of_mem_links (List.mem_reverse.mp hl)
          exact hz (he ▸ List.map_subset _ (flatMap_contents_subset z) hi)
        · obtain rfl := List.mem_singleton.mp hl
          exact hz (he ▸ List.mem_map_of_mem (mem_all_self z))
      have hdi' : (folder :: (items.flatMap all).map Item.id).Nodup :=
        List.nodup_cons.mpr ⟨hitems, hdi⟩
      have hup : climb (z.links.reverse ++ [⟨z.id, folder⟩] ++ rest) folder = climb rest folder :=
        climb_append_of_ne hskip
      rw [List.append_assoc, List.singleton_append] at hup
      rw [ihl hdi' (fun y hy => ih y (List.mem_cons_of_mem _ hy)) hy, hup]

/-- Climbing from a place passes the folders around it and then leaves the top. -/
theorem Place.climb_links (hd : (top.all.map Item.id).Nodup) (h : top.Place x chain)
    (rest : List Link) : climb (top.links.reverse ++ rest) x.id = chain ++ climb rest top.id := by
  induction top generalizing x chain rest with
  | file name source =>
    rcases h.from_top with ⟨rfl, rfl⟩ | ⟨y, hy, _⟩
    · rfl
    · simp [contents] at hy
  | folder id name contents ih =>
    rw [all_folder, List.map_cons, id_folder] at hd
    rcases h.from_top with ⟨rfl, rfl⟩ | ⟨y, hy, inner, hp, rfl⟩
    · apply climb_append_of_ne
      intro link hl he
      have hi := item_mem_of_mem_linksOf (List.mem_reverse.mp hl)
      rw [he, id_folder] at hi
      exact (List.nodup_cons.mp hd).1 hi
    · have hin : ∀ y ∈ contents, ∀ x chain rest, y.Place x chain →
          climb (y.links.reverse ++ rest) x.id = chain ++ climb rest y.id := by
        intro y hy x chain rest hp
        have hdc := (List.nodup_cons.mp hd).2
        rw [List.map_flatMap, List.nodup_flatMap] at hdc
        exact ih y hy (hdc.1 y hy) hp rest
      rw [links, climb_linksOf hd hin hy hp, List.append_assoc, id_folder, List.singleton_append]

end Item

namespace FolderTree

variable {t : FolderTree} {x y : Item} {chain : List String} {p : String}

theorem head?_ancestors (t : FolderTree) (id : String) : (t.ancestors id).head? = t.parent? id :=
  head?_climb ..

theorem WellFormed.ancestors_eq (h : t.WellFormed) (hp : t.root.Place x chain) :
    t.ancestors x.id = chain := by
  have hc := hp.climb_links h.ids_nodup []
  simpa [ancestors, upwardLinks, climb] using hc

theorem WellFormed.parent?_eq (h : t.WellFormed) (hp : t.root.Place x (p :: chain)) :
    t.parent? x.id = some p := by
  rw [← head?_ancestors, h.ancestors_eq hp]
  rfl

theorem WellFormed.ancestors_rootId (h : t.WellFormed) : t.ancestors rootId = [] :=
  h.ancestors_eq (x := t.root) .here

/-- Every item has its place, which its ancestors describe. -/
theorem WellFormed.exists_place (h : t.WellFormed) (hid : id ∈ t.items.map Item.id) :
    ∃ x, x.id = id ∧ t.root.Place x (t.ancestors id) := by
  obtain ⟨x, hx, rfl⟩ := List.mem_map.mp hid
  obtain ⟨chain, hp⟩ := Item.mem_all_iff.mp hx
  exact ⟨x, rfl, h.ancestors_eq hp ▸ hp⟩

theorem WellFormed.ancestors_outwards (h : t.WellFormed) (hid : id ∈ t.items.map Item.id)
    {inner : List String} (he : t.ancestors id = inner ++ p :: chain) :
    p ∈ t.items.map Item.id ∧ t.ancestors p = chain := by
  obtain ⟨x, rfl, hp⟩ := h.exists_place hid
  rw [he] at hp
  obtain ⟨name, contents, hq⟩ := hp.outwards
  exact ⟨List.mem_map_of_mem hq.mem_all, h.ancestors_eq hq⟩

theorem WellFormed.length_ancestors_lt (h : t.WellFormed) {a b : String} (hb : b ∈ t.items.map Item.id)
    (ha : a ∈ t.ancestors b) : (t.ancestors a).length < (t.ancestors b).length := by
  obtain ⟨inner, outer, he⟩ := List.append_of_mem ha
  rw [(h.ancestors_outwards hb he).2, he, List.length_append, List.length_cons]
  omega

end FolderTree

end Foldergram
