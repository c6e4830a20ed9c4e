import Foldergram.Proofs.Diagram.EdgeCount
import Foldergram.Proofs.Projection.Coarsening
import Mathlib.Algebra.GroupWithZero.Nat
import Mathlib.Data.List.ProdSigma

/-!
Drawings of one tree with more folders closed. The picture gets coarser: each edge stands for all the edges
between what its ends have swallowed.
-/

namespace Foldergram

section Count

variable {α : Type} [BEq α] [LawfulBEq α] {x : α} {l : List α}

theorem countP_mem_cons (hx : x ∉ l) (d : List α) :
    d.countP (· ∈ x :: l) = d.count x + d.countP (· ∈ l) := by
  induction d with
  | nil => rfl
  | cons a d ih =>
    simp only [List.countP_cons, List.count_cons, ih]
    by_cases ha : a = x
    · subst ha
      simp [hx]
      omega
    · simp [ha]
      omega

/-- Counting by each of several values is counting what has one of them. -/
theorem sum_map_count (hd : l.Nodup) (d : List α) : (l.map (d.count ·)).sum = d.countP (· ∈ l) := by
  induction l with
  | nil => simp
  | cons x l ih =>
    rw [List.nodup_cons] at hd
    rw [List.map_cons, List.sum_cons, ih hd.2, countP_mem_cons hd.1]

end Count

variable {t : FolderTree} {f g : Folding} {c d : Canvas} {edges : List Dependency} {u v : String}
  {files : List SourceFile}

theorem countBetween_project (hu : u ∈ (c.project edges f).ids) (hv : v ∈ (c.project edges f).ids)
    (hne : u ≠ v) : (c.project edges f).countBetween u v =
      (edges.filterMap (drawnEnds c.tree f)).count (u, v) := by
  rw [Projection.countBetween_eq hu hv, ends_activeEdges_project, List.count_filter (by simpa using hne)]

theorem mem_ids_of_drawnEnds (h : c.tree.WellFormed) {ends : String × String}
    (he : ends ∈ edges.filterMap (drawnEnds c.tree f)) :
    ends.1 ∈ (c.project edges f).ids ∧ ends.2 ∈ (c.project edges f).ids := by
  obtain ⟨dependency, -, hd⟩ := List.mem_filterMap.mp he
  unfold drawnEnds at hd
  split at hd
  · rename_i hin
    cases hd
    rw [project_ids, h.mem_visibleIds, h.mem_visibleIds]
    exact ⟨h.shows_visibleAncestor hin.1, h.shows_visibleAncestor hin.2⟩
  · cases hd

theorem nodup_ids (h : c.tree.WellFormed) (edges : List Dependency) (f : Folding) :
    (c.project edges f).ids.Nodup := by
  rw [project_ids]
  exact h.visibleIds_nodup f

/-- The pairs of nodes on screen whose ends `g` shows at `u` and `v`. -/
def Canvas.pairsShownAt (c : Canvas) (edges : List Dependency) (f g : Folding) (u v : String) :
    List (String × String) :=
  ((c.project edges f).ids ×ˢ (c.project edges f).ids).filter fun ends =>
    visibleAncestor c.tree.upwardLinks g ends.1 = u ∧ visibleAncestor c.tree.upwardLinks g ends.2 = v

theorem mem_pairsShownAt {ends : String × String} : ends ∈ c.pairsShownAt edges f g u v ↔
    (ends.1 ∈ (c.project edges f).ids ∧ ends.2 ∈ (c.project edges f).ids) ∧
      visibleAncestor c.tree.upwardLinks g ends.1 = u ∧ visibleAncestor c.tree.upwardLinks g ends.2 = v := by
  obtain ⟨a, b⟩ := ends
  rw [Canvas.pairsShownAt, List.mem_filter, List.mem_product, decide_eq_true_iff]

/-- The counts push forward: each drawn edge is counted where its ends are shown afterwards. -/
theorem countBetween_coarser (h : c.tree.WellFormed) (hd : c.tree = d.tree) (hc : c.tree.ClosesMore f g)
    (hu : u ∈ (d.project edges g).ids) (hv : v ∈ (d.project edges g).ids) (hne : u ≠ v) :
    (d.project edges g).countBetween u v =
      ((c.pairsShownAt edges f g u v).map fun ends =>
        (c.project edges f).countBetween ends.1 ends.2).sum := by
  have hpairs : (c.pairsShownAt edges f g u v).Nodup :=
    ((nodup_ids h edges f).product (nodup_ids h edges f)).filter _
  have hterms : ∀ ends ∈ c.pairsShownAt edges f g u v,
      (c.project edges f).countBetween ends.1 ends.2 =
        (edges.filterMap (drawnEnds c.tree f)).count ends := by
    intro ends hends
    obtain ⟨⟨h₁, h₂⟩, rfl, rfl⟩ := mem_pairsShownAt.mp hends
    exact countBetween_project h₁ h₂ (fun he => hne (by rw [he]))
  rw [List.map_congr_left hterms, sum_map_count hpairs, countBetween_project hu hv hne, ← hd,
    h.filterMap_drawnEnds hc, List.count, List.countP_map]
  apply List.countP_congr
  intro ends hends
  rw [Function.comp_apply, beq_iff_eq, Prod.mk.injEq, decide_eq_true_iff, mem_pairsShownAt,
    and_iff_right (mem_ids_of_drawnEnds h hends)]

/-- Closing more folders coarsens the picture. What stands for an item is found from what stood for it, the
nodes that remain keep their order, a suppressed edge stays suppressed, and a merged edge counts what was
counted between the nodes that its ends stand for. -/
theorem closing_more_coarsens (hb : FolderTree.build files = .ok t) (ht : c.tree = t) (ht' : d.tree = t)
    (hc : ∀ id, t.hasFolder id = true → f.isCollapsed id = true → g.isCollapsed id = true)
    (edges : List Dependency) :
    (∀ id ∈ t.items.map Item.id, visibleAncestor t.upwardLinks g id =
      visibleAncestor t.upwardLinks g (visibleAncestor t.upwardLinks f id)) ∧
    (d.project edges g).ids.Sublist (c.project edges f).ids ∧
    List.Forall₂ (fun e e' => e.id = e'.id ∧ e.source = e'.source ∧ e.target = e'.target ∧
        (e.suppressed = true → e'.suppressed = true))
      (c.project edges f).edges (d.project edges g).edges ∧
    (c.project edges f).skipped = (d.project edges g).skipped ∧
    ∀ u ∈ (d.project edges g).ids, ∀ v ∈ (d.project edges g).ids, u ≠ v →
      (d.project edges g).countBetween u v =
        ((c.pairsShownAt edges f g u v).map fun ends =>
          (c.project edges f).countBetween ends.1 ends.2).sum := by
  subst ht
  have h : c.tree.WellFormed := (FolderTree.wellFormed_build hb).1
  obtain ⟨hedges, hskipped⟩ := edges_alike h ht'.symm hc edges
  refine ⟨?_, ?_, hedges, hskipped, ?_⟩
  · intro id hid
    exact (h.visibleAncestor_visibleAncestor hc hid).symm
  · rw [project_ids, project_ids, ht']
    exact h.visibleIds_sublist hc
  · intro u hu v hv hne
    exact countBetween_coarser h ht'.symm hc hu hv hne

theorem closing_more_coarsens_nested :
    let f := Folding.empty.set "a/b" false
    let g := f.set "a" false
    let c : Canvas := { tree := FolderTree.nested }
    let edges : List Dependency := [⟨"e", "a/b/c"⟩, ⟨"e", "a/d"⟩, ⟨"a/d", "a/b/c"⟩]
    FolderTree.build FolderTree.nestedFiles = .ok c.tree ∧
      (∀ id, c.tree.hasFolder id = true → f.isCollapsed id = true → g.isCollapsed id = true) ∧
      "e" ∈ (c.project edges g).ids ∧ "a" ∈ (c.project edges g).ids ∧
      (c.project edges g).countBetween "e" "a" = 2 ∧
      ((c.pairsShownAt edges f g "e" "a").map fun ends =>
        (c.project edges f).countBetween ends.1 ends.2).sum = 2 := by
  intro f g c edges
  have hwf : c.tree.WellFormed := FolderTree.wellFormed_nested
  have hmore : c.tree.ClosesMore f g := c.tree.closesMore_set f "a"
  have hids : ∀ id, c.tree.Shows g id → id ∈ (c.project edges g).ids := by
    intro id hs
    rw [project_ids]
    exact hwf.mem_visibleIds.mpr hs
  have he : "e" ∈ (c.project edges g).ids := hids "e" ⟨by decide, by decide +kernel⟩
  have ha : "a" ∈ (c.project edges g).ids := hids "a" ⟨by decide, by decide +kernel⟩
  have htwo : (c.project edges g).countBetween "e" "a" = 2 := by
    rw [countBetween_project he ha (by decide)]
    decide +kernel
  obtain ⟨-, -, -, -, hsum⟩ :=
    closing_more_coarsens (c := c) (d := c) FolderTree.build_nestedFiles rfl rfl hmore edges
  exact ⟨FolderTree.build_nestedFiles, hmore, he, ha, htwo,
    (hsum "e" he "a" ha (by decide)).symm.trans htwo⟩

end Foldergram
