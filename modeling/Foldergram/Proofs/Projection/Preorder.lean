import Foldergram.Proofs.Layout.Arrangement
import Foldergram.Proofs.Projection.Routing

/-!
The order of the nodes on screen. They are listed depth first, siblings in display order, so that a node and
everything visible in it stand in one piece behind the folder around it.
-/

namespace Foldergram

namespace Item

variable {x y top : Item} {f : Folding} {id name : String} {above : List String} {folder : Option String}
  {chain : List String} {contents items : List Item}

/-- One sibling is shown before another: folders come before files, and in each kind the names decide, first
without regard to case. -/
def ShownBefore (x y : Item) : Prop :=
  (x.isFolder = true ∧ y.isFolder = false) ∨
    x.isFolder = y.isFolder ∧ (Text.lowercase x.name < Text.lowercase y.name ∨
      Text.lowercase x.name = Text.lowercase y.name ∧ x.name < y.name)

theorem compare_eq_lt_iff {a b : String} : compare a b = .lt ↔ a < b :=
  compareOfLessAndEq_eq_lt

theorem compareDisplay_eq_lt_iff : compareDisplay x y = .lt ↔ x.ShownBefore y := by
  unfold compareDisplay compareNames ShownBefore
  cases x.isFolder <;> cases y.isFolder <;>
    simp [Ordering.then_eq_lt, compare_eq_lt_iff]

/-- The ids of what is visible of an item, depth first and siblings in the order in which they are shown. -/
inductive Outline (f : Folding) : Item → List String → Prop
  | file (name : String) (source : SourceFile) : Outline f (.file name source) [source.id]
  | closed {id : String} (name : String) (contents : List Item) : f.isCollapsed id = true →
      Outline f (.folder id name contents) [id]
  | opened {id name : String} {contents order : List Item} {inside : List (List String)} :
      f.isExpanded id = true → order.Perm contents → order.Pairwise ShownBefore →
      List.Forall₂ (Outline f) order inside → Outline f (.folder id name contents) (id :: inside.flatten)

theorem pairwise_shownBefore (hd : (items.map Item.name).Nodup) :
    (displayOrder items).Pairwise ShownBefore := by
  have hnames : ((displayOrder items).map Item.name).Nodup :=
    ((displayOrder_perm items).map Item.name).nodup_iff.mpr hd
  have hne : (displayOrder items).Pairwise (fun x y => x.name ≠ y.name) := List.pairwise_map.mp hnames
  refine ((pairwise_displayOrder items).and hne).imp ?_
  rintro x y ⟨hle, hne⟩
  apply compareDisplay_eq_lt_iff.mp
  cases hc : compareDisplay x y with
  | lt => rfl
  | eq => exact absurd (name_eq_of_compareDisplay hc) hne
  | gt => simp [hc] at hle

/-- What decides the order of siblings does not depend on how their contents are shown. -/
theorem displayOrder_map_display (items : List Item) :
    displayOrder (items.map display) = (displayOrder items).map display := by
  refine (List.map_mergeSort ?_).symm
  intro x _ y _
  simp [compareDisplay]

def outline (f : Folding) (x : Item) : List String :=
  (x.display.visible f none).map (·.1.id)

/-- What is visible of an item, the item first. -/
def shown (f : Folding) (x : Item) : List Item :=
  (x.visible f none).map Prod.fst

/-- Where an item stands does not matter for what is visible of it. -/
theorem map_fst_visible (f : Folding) (x : Item) (above : Option String) :
    (x.visible f above).map Prod.fst = x.shown f := by
  cases x with
  | file name source => rfl
  | folder id name contents => simp [shown]

@[simp] theorem shown_file (name : String) (source : SourceFile) :
    (file name source).shown f = [.file name source] := rfl

@[simp] theorem shown_folder (id name : String) (contents : List Item) :
    (Item.folder id name contents).shown f = .folder id name contents ::
      if f.isExpanded id then contents.flatMap (shown f) else [] := by
  rw [shown, visible_folder, List.map_cons]
  congr 1
  split
  · rw [List.map_flatMap]
    exact List.flatMap_congr fun x _ => map_fst_visible f x (some id)
  · rfl

theorem outline_eq (x : Item) : outline f x = (x.display.shown f).map Item.id := by
  rw [outline, shown, List.map_map]
  rfl

theorem outline_folder (id name : String) (contents : List Item) : outline f (.folder id name contents) =
    id :: if f.isExpanded id then (displayOrder contents).flatMap (outline f) else [] := by
  rw [outline_eq, display_folder, shown_folder, List.map_cons, id_folder]
  congr 1
  split
  · rw [displayOrder_map_display, List.flatMap_map, List.map_flatMap]
    exact List.flatMap_congr fun x _ => (outline_eq x).symm
  · rfl

theorem Siblings.outline_folder (h : Siblings above contents) (id name : String)
    (ih : ∀ x ∈ contents, Outline f x (outline f x)) :
    Outline f (.folder id name contents) (outline f (.folder id name contents)) := by
  rw [Item.outline_folder]
  by_cases ho : f.isExpanded id = true
  · rw [if_pos ho, List.flatMap_def]
    refine .opened ho (displayOrder_perm contents) (pairwise_shownBefore h.names_nodup) ?_
    rw [List.forall₂_map_right_iff, List.forall₂_same]
    exact fun x hx => ih x (mem_displayOrder.mp hx)
  · rw [if_neg ho]
    exact .closed name contents (by simpa using ho)

theorem WellPlaced.outline (h : x.WellPlaced above) : Outline f x (outline f x) := by
  induction x generalizing above with
  | file name source => exact .file name source
  | folder id name contents ih =>
    exact h.siblings.outline_folder id name (fun x hx => ih x hx (h.siblings.placed x hx))

/-- A visible item and what is visible in it stand in one piece. By induction on the place. -/
theorem Place.visible_split (h : top.Place x chain) (hall : ∀ p ∈ chain, f.isExpanded p = true)
    (above : Option String) : ∃ pre post,
      top.visible f above = pre ++ (x.visible f (chain.head?.or above) ++ post) := by
  induction h with
  | here => exact ⟨[], [], by simp⟩
  | @inside x id name contents chain _ hx ih =>
    obtain ⟨pre, post, he⟩ := ih (fun p hp => hall p (List.mem_cons_of_mem _ hp))
    obtain ⟨left, right, rfl⟩ := List.append_of_mem hx
    rw [visible_folder, if_pos (hall id (List.mem_cons_self ..))] at he
    refine ⟨pre ++ (Item.folder id name (left ++ x :: right), chain.head?.or above) ::
      left.flatMap (visible f (some id)), right.flatMap (visible f (some id)) ++ post, ?_⟩
    rw [he]
    simp

theorem visible_eq_cons (f : Folding) (x : Item) (above : Option String) :
    ∃ inside, x.visible f above = (x, above) :: inside := by
  cases x with
  | file name source => exact ⟨[], rfl⟩
  | folder id name contents => exact ⟨_, visible_folder id name contents⟩

theorem shown_eq_cons (f : Folding) (x : Item) : ∃ inside, x.shown f = x :: inside := by
  obtain ⟨inside, hin⟩ := visible_eq_cons f x none
  exact ⟨inside.map Prod.fst, by rw [shown, hin, List.map_cons]⟩

end Item

namespace FolderTree

variable {t : FolderTree} {f : Folding} {id other : String}

theorem visibleIds_eq_cons (t : FolderTree) (f : Folding) : ∃ inside, t.visibleIds f = rootId :: inside := by
  obtain ⟨inside, hin⟩ := Item.visible_eq_cons f t.root.display none
  refine ⟨inside.map (·.1.id), ?_⟩
  rw [visibleIds, visible, hin, List.map_cons, id_root_display]

theorem WellFormed.outline (h : t.WellFormed) (f : Folding) : Item.Outline f t.root (t.visibleIds f) :=
  h.siblings.outline_folder rootId rootName (fun x hx => (h.siblings.placed x hx).outline)

/-- An id is among the ancestors of an item if the item stands somewhere in the folder of that id. -/
theorem WellFormed.mem_ancestors_iff (h : t.WellFormed) {x y : Item} {chain : List String}
    (hx : t.root.Place x chain) (hy : y ∈ t.items) : x.id ∈ t.ancestors y.id ↔
      ∃ inner, x.Place y (inner ++ [x.id]) ∧ t.ancestors y.id = inner ++ x.id :: chain := by
  constructor
  · intro hm
    obtain ⟨inner, outer, ha⟩ := List.append_of_mem hm
    obtain ⟨chain', hp⟩ := Item.mem_all_iff.mp hy
    obtain rfl := h.ancestors_eq hp
    rw [ha] at hp
    obtain ⟨name, contents, hfolder, hinner⟩ := hp.through
    have he : Item.folder x.id name contents = x :=
      List.inj_on_of_nodup_map h.ids_nodup hfolder.mem_all hx.mem_all rfl
    have houter : outer = chain := by
      rw [← h.ancestors_eq hfolder, ← h.ancestors_eq hx]
      rfl
    exact ⟨inner, he ▸ hinner, houter ▸ ha⟩
  · rintro ⟨inner, -, ha⟩
    simp [ha]

/-- In the list of visible ids, what is visible in an item follows right behind it, and nothing else that
lies in the item is in the list. -/
theorem WellFormed.visibleIds_split_at (h : t.WellFormed) {x : Item} {chain : List String}
    (hx : t.root.Place x chain) (hall : ∀ p ∈ chain, f.isExpanded p = true) :
    ∃ pre block post, t.visibleIds f = pre ++ x.id :: (block ++ post) ∧
      Item.outline f x = x.id :: block ∧
      ∀ other ∈ t.visibleIds f, other ∈ block ↔ x.id ∈ t.ancestors other := by
  obtain ⟨pre, post, he⟩ := hx.display.visible_split hall none
  generalize chain.head?.or none = folder at he
  obtain ⟨inside, hin⟩ := Item.visible_eq_cons f x.display folder
  have hids : t.visibleIds f = pre.map (·.1.id) ++
      x.id :: (inside.map (·.1.id) ++ post.map (·.1.id)) := by
    rw [visibleIds, visible, he, hin]
    simp
  have houtline : Item.outline f x = x.id :: inside.map (·.1.id) := by
    have hmap := congrArg (List.map Item.id) (Item.map_fst_visible f x.display folder)
    rw [Item.outline_eq, ← hmap, hin]
    simp
  have honce : x.id ∉ inside.map (·.1.id) := by
    have hd := h.visibleIds_nodup f
    rw [hids, List.nodup_middle, List.nodup_cons] at hd
    exact fun hm => hd.1 (List.mem_append_right _ (List.mem_append_left _ hm))
  refine ⟨_, _, _, hids, houtline, ?_⟩
  intro other ho
  have hso := h.mem_visibleIds.mp ho
  obtain ⟨y, rfl, hy⟩ := h.exists_place hso.1
  rw [h.mem_ancestors_iff hx hy.mem_all]
  constructor
  · intro hm
    obtain ⟨⟨z, above⟩, hz, hid⟩ := List.mem_map.mp hm
    have hv : (z, above) ∈ x.display.visible f folder := hin ▸ List.mem_cons_of_mem _ hz
    obtain ⟨chain, hp, -, -⟩ := Item.mem_visible_iff.mp hv
    rcases hp.from_top with ⟨rfl, -⟩ | ⟨_, -, inner, -, rfl⟩
    · rw [← hid, Item.id_display] at hm
      exact absurd hm honce
    · obtain ⟨w, hw, rfl⟩ := hp.of_display
      obtain rfl : w = y := List.inj_on_of_nodup_map h.ids_nodup (hw.trans hx).mem_all hy.mem_all
        (by simpa using hid)
      rw [Item.id_display] at hw
      exact ⟨inner, hw, by rw [h.ancestors_eq (hw.trans hx)]; simp⟩
  · rintro ⟨inner, hp, ha⟩
    have hopen : ∀ p ∈ inner ++ [x.id], f.isExpanded p = true := by
      intro p hm
      apply hso.2
      rw [ha, List.append_cons]
      exact List.mem_append_left _ hm
    have hv : (y.display, (inner ++ [x.id]).head?.or folder) ∈ x.display.visible f folder :=
      Item.mem_visible_iff.mpr ⟨_, hp.display, hopen, rfl⟩
    rw [hin, List.mem_cons] at hv
    rcases hv with he | hv
    · have hid : y.id = x.id := by
        rw [← Item.id_display y, (Prod.mk.inj he).1, Item.id_display]
      have hl := congrArg List.length ha
      rw [hid, h.ancestors_eq hx, List.length_append, List.length_cons] at hl
      omega
    · exact List.mem_map.mpr ⟨_, hv, Item.id_display y⟩

theorem WellFormed.visibleIds_split (h : t.WellFormed) (hs : t.Shows f id) :
    ∃ pre block post, t.visibleIds f = pre ++ id :: (block ++ post) ∧
      ∀ other ∈ t.visibleIds f, other ∈ block ↔ id ∈ t.ancestors other := by
  obtain ⟨x, rfl, hx⟩ := h.exists_place hs.1
  obtain ⟨pre, block, post, hids, -, hblock⟩ := h.visibleIds_split_at hx hs.2
  exact ⟨pre, block, post, hids, hblock⟩

end FolderTree

/-- What stands before a member of a list without repetitions is determined by the member. -/
theorem front_unique {l front front' back back' : List String} {a : String} (hd : l.Nodup)
    (h : l = front ++ a :: back) (h' : l = front' ++ a :: back') : front = front' := by
  rw [h, List.nodup_middle, List.nodup_cons, List.mem_append, not_or] at hd
  rw [h] at h'
  exact ((List.append_cons_inj_of_notMem hd.1.1 hd.1.2).mp h').1

variable {c : Canvas} {f : Folding} {edges : List Dependency} {files : List SourceFile}
  {before after : List PositionedNode} {node : PositionedNode}

/-- A node stands for an item whose folders are all open, and names the innermost of them. -/
theorem exists_place_of_mem_nodes (hm : node ∈ (c.project edges f).nodes) :
    ∃ x chain, c.tree.root.Place x chain ∧ (∀ p ∈ chain, f.isExpanded p = true) ∧ node.id = x.id ∧
      node.kind = (if x.isFolder then .folder else .file) ∧ node.parentId = chain.head? := by
  obtain ⟨⟨y, folder⟩, hv, rfl⟩ := List.mem_map.mp hm
  obtain ⟨chain, hp, hall, rfl⟩ := Item.mem_visible_iff.mp hv
  obtain ⟨x, hx, rfl⟩ := hp.of_display
  exact ⟨x, chain, hx, hall, by simp [Canvas.node], by simp [Canvas.node], by simp [Canvas.node]⟩

/-- Every node but the root comes after the folder that it names, which is open. -/
theorem parent_before (h : c.tree.WellFormed)
    (he : (c.project edges f).nodes = before ++ node :: after) :
    (before = [] ∧ node.id = rootId ∧ node.parentId = none) ∨
      ∃ parent ∈ before, node.parentId = some parent.id ∧ c.tree.parent? node.id = some parent.id ∧
        parent.kind = .folder ∧ f.isExpanded parent.id = true := by
  have hids : c.tree.visibleIds f = before.map (·.id) ++ node.id :: after.map (·.id) := by
    rw [← project_ids c edges f, Projection.ids, he]
    simp
  have hd := h.visibleIds_nodup f
  have hmem : node ∈ (c.project edges f).nodes := by simp [he]
  obtain ⟨x, chain, hx, hall, hid, -, hfolder⟩ := exists_place_of_mem_nodes hmem
  rw [hid] at hids ⊢
  cases chain with
  | nil =>
    obtain rfl := hx.eq_top
    obtain ⟨inside, hfirst⟩ := c.tree.visibleIds_eq_cons f
    exact Or.inl ⟨List.map_eq_nil_iff.mp (front_unique hd hids hfirst), rfl, hfolder⟩
  | cons q chain =>
    have ha := h.ancestors_eq hx
    have hs : c.tree.Shows f x.id := ⟨List.mem_map_of_mem hx.mem_all, ha ▸ hall⟩
    have hq : q ∈ c.tree.ancestors x.id := by simp [ha]
    obtain ⟨pre, block, post, hsplit, hblock⟩ := h.visibleIds_split (hs.of_mem_ancestors h hq)
    have hm : x.id ∈ block := (hblock x.id (h.mem_visibleIds.mpr hs)).mpr hq
    obtain ⟨left, right, rfl⟩ := List.append_of_mem hm
    have hsplit' : c.tree.visibleIds f = (pre ++ q :: left) ++ x.id :: (right ++ post) := by
      rw [hsplit]
      simp
    have hqm : q ∈ before.map (·.id) := by
      rw [front_unique hd hids hsplit']
      simp
    obtain ⟨parent, hparent, rfl⟩ := List.mem_map.mp hqm
    refine Or.inr ⟨parent, hparent, hfolder, h.parent?_eq hx, ?_, hall _ (List.mem_cons_self ..)⟩
    have hpm : parent ∈ (c.project edges f).nodes := by simp [he, hparent]
    obtain ⟨z, _, hz, -, hzid, hkind, -⟩ := exists_place_of_mem_nodes hpm
    obtain ⟨name, contents, houter, -⟩ := hx.out
    obtain rfl : z = Item.folder parent.id name contents :=
      List.inj_on_of_nodup_map h.ids_nodup hz.mem_all houter.mem_all hzid.symm
    exact hkind

/-- The nodes of a projection are the items whose folders are all open, each once, depth first and siblings
in the order in which they are shown. The root comes first, any other node after the open folder that it
names, and what is visible in a node follows right behind it. Nothing in a closed folder is among them. -/
theorem nodes_in_display_order (hb : FolderTree.build files = .ok c.tree) (edges : List Dependency)
    (f : Folding) :
    (∀ id, id ∈ (c.project edges f).ids ↔
      id ∈ c.tree.items.map Item.id ∧ ∀ q ∈ c.tree.ancestors id, f.isExpanded q = true) ∧
    (c.project edges f).ids.Nodup ∧
    Item.Outline f c.tree.root (c.project edges f).ids ∧
    (c.project edges f).ids.head? = some rootId ∧
    (∀ before node after, (c.project edges f).nodes = before ++ node :: after →
      (before = [] ∧ node.id = rootId ∧ node.parentId = none) ∨
        ∃ parent ∈ before, node.parentId = some parent.id ∧ c.tree.parent? node.id = some parent.id ∧
          parent.kind = .folder ∧ f.isExpanded parent.id = true) ∧
    (∀ id ∈ (c.project edges f).ids, ∃ pre block post,
      (c.project edges f).ids = pre ++ id :: (block ++ post) ∧
        ∀ other ∈ (c.project edges f).ids, other ∈ block ↔ id ∈ c.tree.ancestors other) ∧
    ∀ q, f.isCollapsed q = true → ∀ id ∈ (c.project edges f).ids, q ∉ c.tree.ancestors id := by
  have h := (FolderTree.wellFormed_build hb).1
  rw [project_ids]
  refine ⟨fun id => h.mem_visibleIds, h.visibleIds_nodup f, h.outline f, ?_,
    fun before node after he => parent_before h he, ?_, ?_⟩
  · obtain ⟨inside, hfirst⟩ := c.tree.visibleIds_eq_cons f
    rw [hfirst, List.head?_cons]
  · intro id hid
    exact h.visibleIds_split (h.mem_visibleIds.mp hid)
  · intro q hq id hid hm
    have hopen := (h.mem_visibleIds.mp hid).2 q hm
    simp [Folding.isExpanded, hq] at hopen

theorem nodes_in_display_order_nested :
    let f := Folding.empty.set "a/b" false
    let p := ({ tree := FolderTree.nested } : Canvas).project [] f
    FolderTree.build FolderTree.nestedFiles = .ok FolderTree.nested ∧
      p.ids = ["root", "a", "a/b", "a/d", "e"] ∧ Item.Outline f FolderTree.nested.root p.ids ∧
      ∃ pre block post, p.ids = pre ++ "a" :: (block ++ post) ∧
        ∀ other ∈ p.ids, other ∈ block ↔ "a" ∈ FolderTree.nested.ancestors other := by
  intro f p
  obtain ⟨-, -, houtline, -, -, hblock, -⟩ :=
    nodes_in_display_order (c := { tree := FolderTree.nested }) FolderTree.build_nestedFiles [] f
  have hids : p.ids = ["root", "a", "a/b", "a/d", "e"] := by
    rw [project_ids]
    exact (FolderTree.keys_layout FolderTree.layout_nested).symm
  exact ⟨FolderTree.build_nestedFiles, hids, houtline, hblock "a" (by simp [p, hids])⟩

end Foldergram
