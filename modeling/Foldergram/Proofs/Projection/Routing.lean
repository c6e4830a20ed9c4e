import Foldergram.Projection.Route
import Foldergram.Proofs.Projection.Visibility
import Foldergram.Proofs.Tree.Lookup

/-! Edges end on screen: the ends of a routed edge are drawn by nodes of the same projection. -/

namespace Foldergram

variable {t : FolderTree} {f : Folding} {id p : String} {c : Canvas} {edges : List Dependency}

namespace FolderTree

theorem isNone_get? : (t.get? id).isNone ↔ id ∉ t.items.map Item.id := by
  simp [get?]

theorem WellFormed.shows_visibleAncestor (h : t.WellFormed) (hid : id ∈ t.items.map Item.id) :
    t.Shows f (visibleAncestor t.upwardLinks f id) := by
  rcases visibleAncestor_cases t.upwardLinks f id with ⟨he, hall⟩ | ⟨inner, outer, hc, -, hall⟩
  · rw [he]
    exact ⟨hid, hall⟩
  · obtain ⟨hm, ha⟩ := h.ancestors_outwards hid hc
    exact ⟨hm, ha ▸ hall⟩

theorem visibleAncestor_mem (t : FolderTree) (f : Folding) (id : String) :
    visibleAncestor t.upwardLinks f id ∈ id :: t.ancestors id := by
  rcases visibleAncestor_cases t.upwardLinks f id with ⟨he, -⟩ | ⟨inner, outer, hc, -, -⟩
  · rw [he]
    exact List.mem_cons_self ..
  · have ha : t.ancestors id = inner ++ visibleAncestor t.upwardLinks f id :: outer := hc
    rw [ha]
    simp

theorem Shows.visibleAncestor_eq (h : t.Shows f id) : visibleAncestor t.upwardLinks f id = id := by
  rcases visibleAncestor_cases t.upwardLinks f id with ⟨he, -⟩ | ⟨inner, outer, hc, hclosed, -⟩
  · exact he
  · have ha : t.ancestors id = inner ++ visibleAncestor t.upwardLinks f id :: outer := hc
    have hopen := h.2 (visibleAncestor t.upwardLinks f id) (by rw [ha]; simp)
    simp [Folding.isExpanded, hclosed] at hopen

/-- Of an item and the folders around it, no visible one lies deeper than the visible ancestor. -/
theorem WellFormed.visibleAncestor_deepest (h : t.WellFormed) (hid : id ∈ t.items.map Item.id)
    {other : String} (ho : other ∈ id :: t.ancestors id) (hs : t.Shows f other) :
    other = visibleAncestor t.upwardLinks f id ∨
      other ∈ t.ancestors (visibleAncestor t.upwardLinks f id) := by
  rcases List.mem_cons.mp ho with rfl | ho
  · exact Or.inl hs.visibleAncestor_eq.symm
  · rcases visibleAncestor_cases t.upwardLinks f id with ⟨he, -⟩ | ⟨inner, outer, hc, hclosed, -⟩
    · rw [he]
      exact Or.inr ho
    · generalize visibleAncestor t.upwardLinks f id = shown at hc hclosed ⊢
      have ha : t.ancestors id = inner ++ shown :: outer := hc
      rw [ha, List.mem_append] at ho
      rcases ho with ho | ho
      · obtain ⟨front, back, rfl⟩ := List.append_of_mem ho
        rw [List.append_assoc, List.cons_append] at ha
        obtain ⟨-, hother⟩ := h.ancestors_outwards hid ha
        have hopen := hs.2 shown (by rw [hother]; simp)
        simp [Folding.isExpanded, hclosed] at hopen
      · rcases List.mem_cons.mp ho with rfl | ho
        · exact Or.inl rfl
        · rw [(h.ancestors_outwards hid ha).2]
          exact Or.inr ho

/-- An item that another one stands for lies in a closed folder. -/
theorem WellFormed.visibleAncestor_eq_self_or_closed (h : t.WellFormed) (hid : id ∈ t.items.map Item.id) :
    visibleAncestor t.upwardLinks f id = id ∨
      (t.hasFolder (visibleAncestor t.upwardLinks f id) = true ∧
        f.isCollapsed (visibleAncestor t.upwardLinks f id) = true) := by
  rcases visibleAncestor_cases t.upwardLinks f id with ⟨he, -⟩ | ⟨inner, outer, hclimb, hclosed, -⟩
  · exact Or.inl he
  · have ha : t.ancestors id = inner ++ visibleAncestor t.upwardLinks f id :: outer := hclimb
    exact Or.inr ⟨h.hasFolder_of_mem_ancestors hid (by rw [ha]; simp), hclosed⟩

/-- From a closed folder on, the way up is the same for everything in it. -/
theorem WellFormed.visibleAncestor_of_closed (h : t.WellFormed) (hid : id ∈ t.items.map Item.id)
    (hp : p ∈ id :: t.ancestors id) (hclosed : f.isCollapsed p = true) :
    visibleAncestor t.upwardLinks f id = visibleAncestor t.upwardLinks f p := by
  rcases List.mem_cons.mp hp with rfl | hp
  · rfl
  · obtain ⟨inner, outer, ha⟩ := List.append_of_mem hp
    have hclimb : climb t.upwardLinks id = inner ++ p :: outer := ha
    have hrest : climb t.upwardLinks p = outer := (h.ancestors_outwards hid ha).2
    rw [visibleAncestor, visibleAncestor, hclimb, hrest, List.foldl_append, List.foldl_cons, if_pos hclosed]

/-- Both ends of a dependency name items of the tree. -/
def Connects (t : FolderTree) (d : Dependency) : Prop :=
  d.source ∈ t.items.map Item.id ∧ d.target ∈ t.items.map Item.id

instance (t : FolderTree) : DecidablePred t.Connects :=
  fun _ => inferInstanceAs (Decidable (_ ∧ _))

/-- The end for which a dependency is skipped: the source, unless it names an item. -/
def strayEnd (t : FolderTree) (d : Dependency) : String :=
  if d.source ∈ t.items.map Item.id then d.target else d.source

end FolderTree

section Route

variable {ordinal : Nat} {d : Dependency} {e : RoutedEdge}

theorem route_of_connects (h : t.Connects d) :
    route t t.upwardLinks f ordinal d = .ok {
      id := s!"e-{d.source}-{d.target}-{ordinal}"
      source := d.source
      target := d.target
      sourceVisible := visibleAncestor t.upwardLinks f d.source
      targetVisible := visibleAncestor t.upwardLinks f d.target
      suppressed := visibleAncestor t.upwardLinks f d.source == visibleAncestor t.upwardLinks f d.target } := by
  have hs : ¬ (t.get? d.source).isNone := by
    rw [FolderTree.isNone_get?, not_not]
    exact h.1
  have ht : ¬ (t.get? d.target).isNone := by
    rw [FolderTree.isNone_get?, not_not]
    exact h.2
  rw [route, if_neg hs, if_neg ht]

theorem route_of_not_connects (h : ¬ t.Connects d) :
    route t t.upwardLinks f ordinal d = .error ⟨ordinal, t.strayEnd d⟩ := by
  by_cases hs : d.source ∈ t.items.map Item.id
  · have ht : d.target ∉ t.items.map Item.id := fun ht => h ⟨hs, ht⟩
    have hs' : ¬ (t.get? d.source).isNone := by rwa [FolderTree.isNone_get?, not_not]
    rw [route, if_neg hs', if_pos (FolderTree.isNone_get?.mpr ht), FolderTree.strayEnd, if_pos hs]
  · rw [route, if_pos (FolderTree.isNone_get?.mpr hs), FolderTree.strayEnd, if_neg hs]

theorem route_eq_ok (h : route t t.upwardLinks f ordinal d = .ok e) :
    e.source ∈ t.items.map Item.id ∧ e.target ∈ t.items.map Item.id ∧
      e.sourceVisible = visibleAncestor t.upwardLinks f e.source ∧
      e.targetVisible = visibleAncestor t.upwardLinks f e.target := by
  by_cases hd : t.Connects d
  · rw [route_of_connects hd] at h
    cases h
    exact ⟨hd.1, hd.2, rfl, rfl⟩
  · rw [route_of_not_connects hd] at h
    cases h

end Route

/-- The ids of the nodes on screen, in display order. -/
def Projection.ids (p : Projection) : List String :=
  p.nodes.map (·.id)

theorem project_ids (c : Canvas) (edges : List Dependency) (f : Folding) :
    (c.project edges f).ids = c.tree.visibleIds f := by
  simp [Projection.ids, Canvas.project, Canvas.node, FolderTree.visibleIds]

theorem exists_route_of_mem_edges {e : RoutedEdge} (h : e ∈ (c.project edges f).edges) :
    ∃ d ∈ edges, ∃ ordinal, route c.tree c.tree.upwardLinks f ordinal d = .ok e := by
  obtain ⟨r, hr, he⟩ := List.mem_filterMap.mp h
  obtain ⟨⟨d, ordinal⟩, hd, rfl⟩ := List.mem_map.mp hr
  refine ⟨d, (List.mem_zipIdx hd).2.2 ▸ List.getElem_mem _, ordinal, ?_⟩
  simp only at he
  generalize route c.tree c.tree.upwardLinks f ordinal d = result at he ⊢
  cases result with
  | ok e' => simp_all [routed?]
  | error d' => simp [routed?] at he

/-- A visible item is drawn by exactly one node. -/
theorem countP_project_eq_one (h : c.tree.WellFormed) (hs : c.tree.Shows f id) :
    (c.project edges f).nodes.countP (·.id = id) = 1 := by
  have hm : id ∈ (c.project edges f).ids := by
    rw [project_ids]
    exact h.mem_visibleIds.mpr hs
  have hd : (c.project edges f).ids.Nodup := by
    rw [project_ids]
    exact h.visibleIds_nodup f
  have hc := List.count_eq_one_of_mem hd hm
  rw [Projection.ids, List.count, List.countP_map] at hc
  rw [← hc]
  apply List.countP_congr
  simp

/-- The walk upwards and the walk downwards agree: the visible ancestor is the deepest item on the way
up that is visible, so that every routed edge is drawn between nodes on screen. -/
theorem visibleAncestor_agrees_with_visible {files : List SourceFile}
    (hb : FolderTree.build files = .ok t) (hc : c.tree = t) (f : Folding) (edges : List Dependency) :
    (∀ id ∈ t.items.map Item.id,
      visibleAncestor t.upwardLinks f id ∈ id :: t.ancestors id ∧
      visibleAncestor t.upwardLinks f id ∈ t.visibleIds f ∧
      (∀ other ∈ id :: t.ancestors id, other ∈ t.visibleIds f →
        other = visibleAncestor t.upwardLinks f id ∨
          other ∈ t.ancestors (visibleAncestor t.upwardLinks f id)) ∧
      (visibleAncestor t.upwardLinks f id = id ↔ id ∈ t.visibleIds f)) ∧
    ∀ e ∈ (c.project edges f).edges,
      e.sourceVisible = visibleAncestor t.upwardLinks f e.source ∧
      e.targetVisible = visibleAncestor t.upwardLinks f e.target ∧
      (c.project edges f).nodes.countP (·.id = e.sourceVisible) = 1 ∧
      (c.project edges f).nodes.countP (·.id = e.targetVisible) = 1 := by
  subst hc
  have h := (FolderTree.wellFormed_build hb).1
  constructor
  · intro id hid
    have hshown := h.shows_visibleAncestor (f := f) hid
    simp only [h.mem_visibleIds]
    refine ⟨c.tree.visibleAncestor_mem f id, hshown, ?_, ?_⟩
    · intro other ho hs
      exact h.visibleAncestor_deepest hid ho hs
    · exact ⟨fun he => he ▸ hshown, fun hs => hs.visibleAncestor_eq⟩
  · intro e he
    obtain ⟨d, -, ordinal, hr⟩ := exists_route_of_mem_edges he
    obtain ⟨hs, ht, hsv, htv⟩ := route_eq_ok hr
    refine ⟨hsv, htv, ?_⟩
    rw [hsv, htv]
    exact ⟨countP_project_eq_one h (h.shows_visibleAncestor hs),
      countP_project_eq_one h (h.shows_visibleAncestor ht)⟩

theorem visibleAncestor_agrees_with_visible_nested :
    FolderTree.build FolderTree.nestedFiles = .ok FolderTree.nested ∧
      "a/b" ∈ FolderTree.nested.items.map Item.id ∧
      (visibleAncestor FolderTree.nested.upwardLinks (Folding.empty.set "a" false) "a/b" = "a/b" ↔
        "a/b" ∈ FolderTree.nested.visibleIds (Folding.empty.set "a" false)) := by
  have hm : "a/b" ∈ FolderTree.nested.items.map Item.id := by decide
  refine ⟨FolderTree.build_nestedFiles, hm, ?_⟩
  have h := visibleAncestor_agrees_with_visible (c := ⟨FolderTree.nested, {}, {}⟩)
    FolderTree.build_nestedFiles rfl (Folding.empty.set "a" false) []
  exact (h.1 "a/b" hm).2.2.2

end Foldergram
