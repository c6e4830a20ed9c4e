import Foldergram.Proofs.Projection.EdgeOrder
import Foldergram.Proofs.Tree.PrefixTree

/-!
What becomes of each dependency. One with an end that names no item is skipped. The others are routed, and
suppressed if a closed folder holds both their ends.
-/

namespace Foldergram

open Foldergram.Path

variable {t : FolderTree} {c : Canvas} {f : Folding} {files : List SourceFile} {id p a b : String}
  {d : Dependency}

/-- What a routed edge keeps of its dependency, with the place among the dependencies in its id. -/
theorem map_routed?_route (t : FolderTree) (f : Folding) (ordinal : Nat) (d : Dependency) :
    (routed? (route t t.upwardLinks f ordinal d)).map (fun e => (e.source, e.target, e.id)) =
      if t.Connects d then some (d.source, d.target, s!"e-{d.source}-{d.target}-{ordinal}") else none := by
  split
  · rename_i h
    rw [route_of_connects h, routed?, Option.map_some]
  · rename_i h
    rw [route_of_not_connects h, routed?, Option.map_none]

theorem dangling?_route (t : FolderTree) (f : Folding) (ordinal : Nat) (d : Dependency) :
    dangling? (route t t.upwardLinks f ordinal d) =
      if ¬ t.Connects d then some ⟨ordinal, t.strayEnd d⟩ else none := by
  split
  · rename_i h
    rw [route_of_not_connects h, dangling?]
  · rename_i h
    rw [route_of_connects (not_not.mp h), dangling?]

/-- The members that are kept, each mapped. -/
theorem filterMap_ite {α β : Type} (keep : α → Prop) [DecidablePred keep] (g : α → β) (l : List α) :
    l.filterMap (fun a => if keep a then some (g a) else none) = (l.filter (keep ·)).map g := by
  rw [← List.filterMap_eq_map, List.filterMap_filter]
  simp

/-- What a projection skips are the dependencies with a stray end, in their order. -/
theorem skipped_project (c : Canvas) (edges : List Dependency) (f : Folding) :
    (c.project edges f).skipped =
      (edges.zipIdx.filter fun (d, _) => ¬ c.tree.Connects d).map fun (d, ordinal) =>
        ⟨ordinal, c.tree.strayEnd d⟩ := by
  rw [← filterMap_ite]
  simp only [Canvas.project, routeAll, List.filterMap_map, Function.comp_def, dangling?_route]

/-- What a projection skips, by the place of the dependency. -/
theorem mem_skipped_iff {edges : List Dependency} {k : Nat} :
    ⟨k, id⟩ ∈ (c.project edges f).skipped ↔
      ∃ d, edges[k]? = some d ∧ ¬ c.tree.Connects d ∧ c.tree.strayEnd d = id := by
  rw [skipped_project]
  simp only [List.mem_map, List.mem_filter, List.mem_zipIdx_iff_getElem?, decide_eq_true_iff, Prod.exists,
    DanglingEdge.mk.injEq]
  constructor
  · rintro ⟨d, ordinal, ⟨hd, hstray⟩, rfl, rfl⟩
    exact ⟨d, hd, hstray, rfl⟩
  · rintro ⟨d, hd, hstray, rfl⟩
    exact ⟨d, k, ⟨hd, hstray⟩, rfl, rfl⟩

theorem length_skipped (c : Canvas) (edges : List Dependency) (f : Folding) :
    (c.project edges f).skipped.length = edges.countP fun d => ¬ c.tree.Connects d := by
  have hfst : edges.zipIdx.map Prod.fst = edges := by simp
  rw [skipped_project, List.length_map, ← List.countP_eq_length_filter]
  conv_rhs => rw [← hfst, List.countP_map]
  rfl

theorem mem_externalIds {edges : List RoutedEdge} : id ∈ externalIds edges ↔
    ∃ e ∈ edges, e.suppressed = false ∧ (e.sourceVisible = id ∨ e.targetVisible = id) := by
  simp only [externalIds, List.mem_flatMap, List.mem_filter, Bool.not_eq_true', List.mem_cons,
    List.not_mem_nil, or_false, and_assoc, eq_comm (a := id)]

/-- Every dependency is accounted for once. Those between items of the tree are routed in their order, with
their own ends and their place; each of the others is skipped for the first of its ends that names no item.
An edge is suppressed if it starts and ends at one node, and the nodes marked are those at which another edge
starts or ends. -/
theorem project_accounts_for_dependencies (c : Canvas) (edges : List Dependency) (f : Folding) :
    (c.project edges f).edges.map (fun e => (e.source, e.target, e.id)) =
      (edges.zipIdx.filter fun (d, _) => c.tree.Connects d).map (fun (d, ordinal) =>
        (d.source, d.target, s!"e-{d.source}-{d.target}-{ordinal}")) ∧
    (c.project edges f).skipped =
      (edges.zipIdx.filter fun (d, _) => ¬ c.tree.Connects d).map (fun (d, ordinal) =>
        ⟨ordinal, if d.source ∈ c.tree.items.map Item.id then d.target else d.source⟩) ∧
    (∀ e ∈ (c.project edges f).edges, e.suppressed = true ↔ e.sourceVisible = e.targetVisible) ∧
    ∀ node ∈ (c.project edges f).nodes, node.hasExternalEdges = true ↔
      ∃ e ∈ (c.project edges f).edges, e.suppressed = false ∧
        (e.sourceVisible = node.id ∨ e.targetVisible = node.id) := by
  refine ⟨?_, ?_, ?_, ?_⟩
  · rw [← filterMap_ite]
    simp only [Canvas.project, routeAll, List.filterMap_map, List.map_filterMap, Function.comp_def,
      map_routed?_route]
  · rw [← filterMap_ite]
    simp only [Canvas.project, routeAll, List.filterMap_map, Function.comp_def, dangling?_route,
      FolderTree.strayEnd]
  · intro e he
    rw [suppressed_project he, beq_iff_eq]
    rfl
  · intro node hnode
    obtain ⟨⟨x, folder⟩, -, rfl⟩ := List.mem_map.mp hnode
    rw [← mem_externalIds]
    exact List.contains_iff_mem

/-- On ids alone: the root is around everything, and any other folder around its own id and what follows it
with a slash. -/
def Encloses (folder id : String) : Prop :=
  folder = rootId ∨ id = folder ∨ (folder ++ "/").toList <+: id.toList

instance : Decidable (Encloses a b) :=
  inferInstanceAs (Decidable (_ ∨ _ ∨ _))

theorem encloses_rootId : Encloses p rootId ↔ p = rootId := by
  constructor
  · rintro (rfl | rfl | hp)
    · rfl
    · rfl
    · have hslash : '/' ∈ rootId.toList := hp.subset (by simp [String.toList_append])
      exact absurd hslash (by decide)
  · exact Or.inl

namespace FolderTree

/-- The way up from an item passes what its id says. -/
theorem WellFormed.mem_ancestors_iff_encloses (h : t.WellFormed) (hid : id ∈ t.items.map Item.id) :
    p ∈ id :: t.ancestors id ↔ Encloses p id := by
  obtain ⟨x, hx, rfl⟩ := List.mem_map.mp hid
  by_cases hroot : x.id = rootId
  · rw [hroot, h.ancestors_rootId, encloses_rootId, List.mem_singleton]
  · obtain ⟨-, ha⟩ := h.place_of_ne hx hroot
    rw [ha, List.mem_cons, List.mem_append, List.mem_reverse, List.mem_singleton, mem_prefixesOf_folder?,
      ← or_assoc, or_comm, eq_comm (b := x.id), Encloses]

/-- Two items are shown as one if they are one, or lie in a closed folder or are that folder. -/
theorem WellFormed.visibleAncestor_eq_iff (h : t.WellFormed) (ha : a ∈ t.items.map Item.id)
    (hb : b ∈ t.items.map Item.id) :
    visibleAncestor t.upwardLinks f a = visibleAncestor t.upwardLinks f b ↔
      a = b ∨ ∃ folder, t.hasFolder folder = true ∧ f.isCollapsed folder = true ∧
        folder ∈ a :: t.ancestors a ∧ folder ∈ b :: t.ancestors b := by
  constructor
  · intro he
    have hma := t.visibleAncestor_mem f a
    have hmb := t.visibleAncestor_mem f b
    rcases h.visibleAncestor_eq_self_or_closed (f := f) ha with hsa | ⟨hfolder, hclosed⟩
    · rcases h.visibleAncestor_eq_self_or_closed (f := f) hb with hsb | ⟨hfolder, hclosed⟩
      · exact Or.inl (hsa.symm.trans (he.trans hsb))
      · exact Or.inr ⟨_, hfolder, hclosed, he ▸ hma, hmb⟩
    · exact Or.inr ⟨_, hfolder, hclosed, hma, he ▸ hmb⟩
  · rintro (rfl | ⟨folder, -, hclosed, hfa, hfb⟩)
    · rfl
    · rw [h.visibleAncestor_of_closed ha hfa hclosed, h.visibleAncestor_of_closed hb hfb hclosed]

end FolderTree

theorem exists_mem_edges {edges : List Dependency} (hd : d ∈ edges) (h : c.tree.Connects d) (f : Folding) :
    ∃ e ∈ (c.project edges f).edges, e.source = d.source ∧ e.target = d.target := by
  obtain ⟨k, hk⟩ := List.getElem?_of_mem hd
  have hm : (d, k) ∈ edges.zipIdx := List.mem_zipIdx_iff_getElem?.mpr hk
  have hr : routed? (route c.tree c.tree.upwardLinks f k d) = some _ :=
    congrArg routed? (route_of_connects h)
  exact ⟨_, List.mem_filterMap.mpr ⟨_, List.mem_map_of_mem hm, hr⟩, rfl, rfl⟩

/-- Every dependency between items of the tree is routed, and it is suppressed exactly if it leads from an
item to itself, or if a closed folder is around both ends, as their ids show. -/
theorem suppressed_iff_enclosed (hb : FolderTree.build files = .ok c.tree) (edges : List Dependency)
    (f : Folding) :
    (∀ d ∈ edges, d.source ∈ c.tree.items.map Item.id → d.target ∈ c.tree.items.map Item.id →
      ∃ e ∈ (c.project edges f).edges, e.source = d.source ∧ e.target = d.target) ∧
    ∀ e ∈ (c.project edges f).edges, e.suppressed = true ↔
      e.source = e.target ∨ ∃ folder, c.tree.hasFolder folder = true ∧ f.isCollapsed folder = true ∧
        Encloses folder e.source ∧ Encloses folder e.target := by
  have h := (FolderTree.wellFormed_build hb).1
  refine ⟨fun d hd hs ht => exists_mem_edges hd ⟨hs, ht⟩ f, ?_⟩
  intro e he
  obtain ⟨d, -, ordinal, hr⟩ := exists_route_of_mem_edges he
  obtain ⟨hs, ht, hsv, htv⟩ := route_eq_ok hr
  rw [suppressed_project he, beq_iff_eq, RoutedEdge.ends, hsv, htv, h.visibleAncestor_eq_iff hs ht]
  simp only [h.mem_ancestors_iff_encloses hs, h.mem_ancestors_iff_encloses ht]

theorem suppressed_iff_enclosed_nested :
    let f := (Folding.empty.set "a" false).set "a/b" false
    let p := ({ tree := FolderTree.nested } : Canvas).project [⟨"a/b/c", "a"⟩, ⟨"e", "root"⟩] f
    FolderTree.build FolderTree.nestedFiles = .ok FolderTree.nested ∧
      (∃ e ∈ p.edges, e.source = "a/b/c" ∧ e.target = "a" ∧ e.suppressed = true) ∧
      ∃ e ∈ p.edges, e.source = "e" ∧ e.target = "root" ∧ e.suppressed = false := by
  intro f p
  obtain ⟨hrouted, hiff⟩ := suppressed_iff_enclosed (c := { tree := FolderTree.nested })
    FolderTree.build_nestedFiles [⟨"a/b/c", "a"⟩, ⟨"e", "root"⟩] f
  refine ⟨FolderTree.build_nestedFiles, ?_, ?_⟩
  · obtain ⟨e, he, hs, ht⟩ := hrouted ⟨"a/b/c", "a"⟩ (by simp) (by decide) (by decide)
    refine ⟨e, he, hs, ht, (hiff e he).mpr (Or.inr ⟨"a", by decide, by decide +kernel, ?_⟩)⟩
    rw [hs, ht]
    exact ⟨by decide, by decide⟩
  · obtain ⟨e, he, hs, ht⟩ := hrouted ⟨"e", "root"⟩ (by simp) (by decide) (by decide)
    refine ⟨e, he, hs, ht, ?_⟩
    rw [← Bool.not_eq_true, hiff e he, hs, ht]
    rintro (he | ⟨folder, -, hclosed, -, hroot⟩)
    · simp at he
    · obtain rfl := encloses_rootId.mp hroot
      exact absurd hclosed (by decide +kernel)

end Foldergram
