import Foldergram.Proofs.Layout.Agreement
import Foldergram.Proofs.Projection.Preorder
import Foldergram.Proofs.Session.InputOrder
import Foldergram.Proofs.Session.Refinement
import Foldergram.Proofs.Tree.Lookup

/-!
Flags that do not show. Two foldings that give the same answer for every folder on screen make the same
layout, the same projection and the same drawings, whatever they say about folders further in, about files or
about ids that are not there.
-/

namespace Foldergram

variable {f g : Folding} {id : String}

namespace FolderTree

variable {t : FolderTree}

/-- The foldings give the same answer for every folder that the first one shows. -/
def Agree (t : FolderTree) (f g : Folding) : Prop :=
  ∀ id ∈ t.visibleIds f, t.hasFolder id = true → f.isCollapsed id = g.isCollapsed id

namespace WellFormed

theorem agrees (h : t.WellFormed) (ha : t.Agree f g) : t.root.display.Agrees f g := by
  have hshown : ∀ v ∈ t.root.display.visible f none, v.1.isFolder = true →
      f.isCollapsed v.1.id = g.isCollapsed v.1.id := by
    rintro ⟨y, folder⟩ hv hfolder
    obtain ⟨chain, hp, -, -⟩ := Item.mem_visible_iff.mp hv
    obtain ⟨x, hx, rfl⟩ := hp.of_display
    rw [Item.isFolder_display] at hfolder
    exact ha x.display.id (List.mem_map_of_mem hv)
      (h.hasFolder_iff.mpr ⟨x, hx.mem_all, (Item.id_display x).symm, hfolder⟩)
  exact Item.agrees_of_visible hshown

theorem visible_eq (h : t.WellFormed) (ha : t.Agree f g) : t.visible f = t.visible g :=
  (h.agrees ha).visible_eq none

theorem layout_eq (h : t.WellFormed) (ha : t.Agree f g) : t.layout f = t.layout g := by
  rw [layout, layout, (h.agrees ha).arrange_eq]

/-- The way up goes on above closed folders and through hidden ones, but where it ends depends only on what is
visible: of two ends that are both visible, neither lies in the other. -/
theorem visibleAncestor_eq (h : t.WellFormed) (ha : t.Agree f g) (hid : id ∈ t.items.map Item.id) :
    visibleAncestor t.upwardLinks f id = visibleAncestor t.upwardLinks g id := by
  have hiff : ∀ other, t.Shows f other ↔ t.Shows g other := by
    intro other
    rw [← h.mem_visibleIds, ← h.mem_visibleIds, visibleIds, visibleIds, h.visible_eq ha]
  have hf := h.shows_visibleAncestor (f := f) hid
  have hg := h.shows_visibleAncestor (f := g) hid
  rcases h.visibleAncestor_deepest hid (t.visibleAncestor_mem f id) ((hiff _).mp hf) with he | hin
  · exact he
  · rcases h.visibleAncestor_deepest hid (t.visibleAncestor_mem g id) ((hiff _).mpr hg) with he | hout
    · exact he.symm
    · have hlt := h.length_ancestors_lt hg.1 hin
      have hgt := h.length_ancestors_lt hf.1 hout
      omega

end WellFormed

end FolderTree

namespace Canvas

variable {c : Canvas}

theorem layout_eq_of_agree (h : c.tree.WellFormed) (ha : c.tree.Agree f g) : c.layout f = c.layout g := by
  rw [layout_eq h, layout_eq h, h.layout_eq ha]

theorem routeAll_eq_of_agree (h : c.tree.WellFormed) (ha : c.tree.Agree f g) (edges : List Dependency) :
    routeAll c.tree f edges = routeAll c.tree g edges := by
  apply List.map_congr_left
  rintro ⟨d, ordinal⟩ -
  by_cases hd : c.tree.Connects d
  · simp only [route_of_connects hd, h.visibleAncestor_eq ha hd.1, h.visibleAncestor_eq ha hd.2]
  · simp only [route_of_not_connects hd]

theorem project_eq_of_agree (h : c.tree.WellFormed) (ha : c.tree.Agree f g) (edges : List Dependency) :
    c.project edges f = c.project edges g := by
  simp only [project, routeAll_eq_of_agree h ha, h.visible_eq ha]

/-- The nodes on screen are drawn as clusters by both foldings or by neither. -/
theorem isCluster_eq_of_agree (h : c.tree.WellFormed) (ha : c.tree.Agree f g) {edges : List Dependency} :
    ∀ node ∈ (c.project edges f).nodes, Projection.isCluster f node = Projection.isCluster g node := by
  intro node hm
  obtain ⟨x, chain, hx, -, hid, hkind, -⟩ := exists_place_of_mem_nodes hm
  rw [Projection.isCluster, Projection.isCluster]
  cases hfolder : x.isFolder with
  | false => simp [hkind, hfolder]
  | true =>
    have hvisible : node.id ∈ c.tree.visibleIds f := project_ids c edges f ▸ List.mem_map_of_mem hm
    have hflag := ha node.id hvisible (h.hasFolder_iff.mpr ⟨x, hx.mem_all, hid.symm, hfolder⟩)
    rw [Folding.isExpanded_congr hflag]

end Canvas

namespace Projection

variable {p : Projection}

theorem figure_eq_of_clusters (h : ∀ node ∈ p.nodes, isCluster f node = isCluster g node) (levels : Nat) :
    ∀ n ∈ p.nodes.zipIdx, p.figure f levels n = p.figure g levels n := by
  induction levels with
  | zero =>
    intro n _
    rfl
  | succ levels ih =>
    rintro ⟨node, number⟩ hn
    rw [figure, figure, h node (List.fst_mem_of_mem_zipIdx hn)]
    split
    · congr 1
      exact List.map_congr_left (fun n hm => ih n (List.mem_of_mem_filter hm))
    · rfl

theorem topLevel_eq_of_clusters (h : ∀ node ∈ p.nodes, isCluster f node = isCluster g node) :
    p.topLevel f = p.topLevel g := by
  unfold topLevel
  cases hn : p.nodes with
  | nil => rfl
  | cons root rest =>
    have hroot : root ∈ p.nodes := by simp [hn]
    simp only [h root hroot]

theorem mem_zipIdx_of_mem_topLevel {n : PositionedNode × Nat} (h : n ∈ p.topLevel f) :
    n ∈ p.nodes.zipIdx := by
  unfold topLevel at h
  cases hn : p.nodes with
  | nil => simp [hn] at h
  | cons root rest =>
    simp only [hn] at h
    split at h
    · rw [← hn]
      exact List.mem_of_mem_filter h
    · obtain rfl := List.mem_singleton.mp h
      exact List.mem_cons_self ..

theorem exportAs_eq_of_clusters (h : ∀ node ∈ p.nodes, isCluster f node = isCluster g node) :
    p.exportAs f = p.exportAs g := by
  have hdrawing : p.drawing f = p.drawing g := by
    rw [drawing, drawing, ← topLevel_eq_of_clusters h]
    congr 1
    exact List.map_congr_left (fun n hn => figure_eq_of_clusters h _ n (mem_zipIdx_of_mem_topLevel hn))
  have hboxes : p.nodes.countP (!isCluster f ·) = p.nodes.countP (!isCluster g ·) := by
    apply List.countP_congr
    intro node hm
    rw [h node hm]
  funext format
  rw [exportAs, exportAs, hdrawing, hboxes]

end Projection

variable {c : Config} {s : Session} {l : LoadedGraph} {requests : List Request}

theorem Session.Follows.wellFormed {b : Option BuiltGraph} (h : s.Follows c b) (hl : s.loaded = some l) :
    l.canvas.tree.WellFormed := by
  rcases h.loaded_cases with ⟨hs, -⟩ | ⟨l', g, hs, -, hg⟩
  · rw [hs] at hl
    cases hl
  · obtain rfl := Option.some.inj (hs.symm.trans hl)
    rw [hg.tree]
    exact g.wellFormed

/-- Flags that do not show have no effect. Under two foldings that agree on the folders which the first one
shows, a session gives the same reply, and the projection in it is exported alike in every format. -/
theorem hidden_flags_irrelevant (hr : (Session.ofConfig c).run requests = .ok s) (hl : s.loaded = some l)
    (ha : ∀ id ∈ l.canvas.tree.visibleIds f, l.canvas.tree.hasFolder id = true →
      f.isCollapsed id = g.isCollapsed id) :
    s.recompute f = s.recompute g ∧
    ∀ reply, s.recompute f = .ok reply → ∀ format,
      reply.result.exportAs f format = reply.result.exportAs g format := by
  have hwf := ((Session.follows_ofConfig c).run hr).wellFormed hl
  have hagree : ∀ {canvas}, l.canvas.layout f = .ok canvas →
      canvas.tree.WellFormed ∧ canvas.tree.Agree f g := by
    intro canvas hc
    rw [Canvas.tree_layout hc]
    exact ⟨hwf, ha⟩
  rw [Session.recompute_of_some hl, Session.recompute_of_some hl, ← Canvas.layout_eq_of_agree hwf ha]
  constructor
  · cases hc : l.canvas.layout f with
    | error e => rfl
    | ok canvas =>
      obtain ⟨hwf', ha'⟩ := hagree hc
      simp only [Except.map, Canvas.project_eq_of_agree hwf' ha']
  · intro reply hreply format
    obtain ⟨canvas, hc, rfl⟩ := map_eq_ok.mp hreply
    obtain ⟨hwf', ha'⟩ := hagree hc
    exact congrFun (Projection.exportAs_eq_of_clusters (Canvas.isCluster_eq_of_agree hwf' ha')) format

theorem hidden_flags_irrelevant_nested :
    let f := Folding.empty.set "a" false
    let g := (((f.set "a/b" false).set "e" false).set "nowhere" false).set "root" true
    f.isCollapsed "a/b" = false ∧ g.isCollapsed "a/b" = true ∧
      ∃ s l, (Session.ofConfig {}).run [.load BuiltGraph.nested.source] = .ok s ∧ s.loaded = some l ∧
        (∀ id ∈ l.canvas.tree.visibleIds f, l.canvas.tree.hasFolder id = true →
          f.isCollapsed id = g.isCollapsed id) ∧ s.recompute f = s.recompute g := by
  intro f g
  have hlayout : FolderTree.nested.layout f = .ok
      [("root", ⟨0, 0, 450, 210⟩), ("a", ⟨40, 100, 150, 60⟩), ("e", ⟨210, 100, 220, 70⟩)] := by
    rw [FolderTree.layout, FolderTree.display_nested]
    decide +kernel
  have hagree : FolderTree.nested.Agree f g := by
    intro id hid
    rw [← FolderTree.keys_layout hlayout] at hid
    revert id
    decide +kernel
  have hrun : (Session.ofConfig {}).run [.load BuiltGraph.nested.source] =
      .ok ((Session.ofConfig {}).load BuiltGraph.nested.source).session := rfl
  obtain ⟨l, hl, htree⟩ : ∃ l, ((Session.ofConfig {}).load BuiltGraph.nested.source).session.loaded = some l ∧
      l.canvas.tree = FolderTree.nested := ⟨_, rfl, rfl⟩
  rw [← htree] at hagree
  exact ⟨by decide +kernel, by decide +kernel, _, l, hrun, hl, hagree,
    (hidden_flags_irrelevant hrun hl hagree).1⟩

end Foldergram
