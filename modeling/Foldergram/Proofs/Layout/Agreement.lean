import Foldergram.Proofs.Layout.Arrangement

/-!
Foldings that agree on an item. Both ways down from the top, that of visibility and that of the layout, ask
only about folders that they come to, so foldings with the same answers there give the same result.
-/

namespace Foldergram

variable {f g : Folding} {id : String}

theorem Folding.isExpanded_congr (h : f.isCollapsed id = g.isCollapsed id) :
    f.isExpanded id = g.isExpanded id := by
  rw [isExpanded, isExpanded, h]

namespace Item

variable {x : Item} {items items' : List Item}

/-- The foldings give the same answer for each folder that is met on the way down through open folders. -/
inductive Agrees (f g : Folding) : Item → Prop
  | file (name : String) (source : SourceFile) : Agrees f g (.file name source)
  | folder {id name : String} {contents : List Item} : f.isCollapsed id = g.isCollapsed id →
      (f.isExpanded id = true → ∀ x ∈ contents, Agrees f g x) → Agrees f g (.folder id name contents)

theorem agrees_of_visible {above : Option String} (h : ∀ v ∈ x.visible f above, v.1.isFolder = true →
    f.isCollapsed v.1.id = g.isCollapsed v.1.id) : x.Agrees f g := by
  induction x generalizing above with
  | file name source => exact .file name source
  | folder id name contents ih =>
    rw [visible_folder] at h
    refine .folder (h _ (List.mem_cons_self ..) rfl) ?_
    intro ho x hx
    rw [if_pos ho] at h
    apply ih x hx
    intro v hv
    exact h v (List.mem_cons_of_mem _ (List.mem_flatMap.mpr ⟨x, hx, hv⟩))

/-- The way down from the top. -/
theorem Agrees.visible_eq (h : x.Agrees f g) (above : Option String) :
    x.visible f above = x.visible g above := by
  induction h generalizing above with
  | file name source => rfl
  | @folder id name contents hflag _ ih =>
    rw [visible_folder, visible_folder, ← Folding.isExpanded_congr hflag]
    split
    · rename_i ho
      congr 1
      exact List.flatMap_congr (fun x hx => ih ho x hx (some id))
    · rfl

/-- Siblings are arranged alike if they are so one by one. -/
theorem arrangeAll_congr
    (h : List.Forall₂ (fun x y => x.id = y.id ∧ x.arrange f = y.arrange g) items items') :
    arrangeAll f items = arrangeAll g items' := by
  induction h with
  | nil => rfl
  | cons hx _ ih => rw [arrangeAll, arrangeAll, hx.1, hx.2, ih]

/-- The layout stops at closed folders. -/
theorem Agrees.arrange_eq (h : x.Agrees f g) : x.arrange f = x.arrange g := by
  induction h with
  | file name source => rfl
  | @folder id name contents hflag _ ih =>
    rw [arrange, arrange, ← hflag]
    split
    · rfl
    · rename_i hc
      have hin := ih (by simpa [Folding.isExpanded] using hc)
      rw [arrangeAll_congr (List.forall₂_same.mpr fun x hx => ⟨rfl, hin x hx⟩)]

/-- Foldings that agree on all folders of an item, visible or not. -/
theorem agrees_of_all (h : ∀ y ∈ x.all, y.isFolder = true → f.isCollapsed y.id = g.isCollapsed y.id) :
    x.Agrees f g := by
  have hshown : ∀ v ∈ x.visible f none, v.1.isFolder = true →
      f.isCollapsed v.1.id = g.isCollapsed v.1.id := by
    intro v hv
    exact h v.1 ((visible_sublist f none x).subset (List.mem_map_of_mem hv))
  exact agrees_of_visible hshown

end Item

end Foldergram
