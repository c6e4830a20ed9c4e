import Foldergram.Proofs.Projection.Dependencies

/-!
The ids of edges. An id puts the two ends and the place of a dependency together with dashes, and ends may hold
dashes and digits themselves: the ids of different ends can start alike. What stands behind the last dash is
the place, whatever the ends are, and no two dependencies have the same place.
-/

namespace Foldergram

/-- What stands behind the last dash, or everything if there is none. -/
def behindDash (cs : List Char) : List Char :=
  (cs.reverse.takeWhile (· ≠ '-')).reverse

/-- The number that an edge id ends with. -/
def placeOf (id : String) : Nat :=
  Nat.ofDigitChars 10 (behindDash id.toList) 0

theorem behindDash_append {front back : List Char} (h : '-' ∉ back) :
    behindDash (front ++ '-' :: back) = back := by
  have hback : ∀ c ∈ back.reverse, decide (c ≠ '-') = true := by
    intro c hc
    rw [decide_eq_true_eq]
    rintro rfl
    exact h (List.mem_reverse.mp hc)
  have hrev : (front ++ '-' :: back).reverse = back.reverse ++ '-' :: front.reverse := by simp
  rw [behindDash, hrev, List.takeWhile_append_of_pos hback]
  simp

theorem dash_notMem_toDigits (n : Nat) : '-' ∉ Nat.toDigits 10 n := by
  intro h
  have hdigit := Nat.isDigit_of_mem_toDigits (by decide) (by decide) h
  exact absurd hdigit (by decide)

/-- Whatever the ends of a dependency are, its place can be read off its edge id. -/
theorem placeOf_id (source target : String) (place : Nat) :
    placeOf s!"e-{source}-{target}-{place}" = place := by
  have hsplit : (s!"e-{source}-{target}-{place}").toList =
      (s!"e-{source}-{target}").toList ++ '-' :: Nat.toDigits 10 place := by
    change (s!"e-{source}-{target}" ++ "-" ++ toString place).toList = _
    rw [Nat.toString_eq_ofList_toDigits]
    simp
  rw [placeOf, hsplit, behindDash_append (dash_notMem_toDigits place), Nat.ofDigitChars_ten_toDigits]

variable (c : Canvas) (edges : List Dependency) (f : Folding)

theorem placeOf_route (t : FolderTree) (place : Nat) (d : Dependency) :
    (routed? (route t t.upwardLinks f place d)).map (fun e => placeOf e.id) =
      if t.Connects d then some place else none := by
  by_cases h : t.Connects d
  · rw [route_of_connects h, routed?, Option.map_some, placeOf_id, if_pos h]
  · rw [route_of_not_connects h, routed?, Option.map_none, if_neg h]

/-- The places in the ids are those of the dependencies that are routed, in their order. -/
theorem places_project : (c.project edges f).edges.map (fun e => placeOf e.id) =
    (edges.zipIdx.filter fun (d, _) => c.tree.Connects d).map Prod.snd := by
  rw [← filterMap_ite]
  simp only [Canvas.project, routeAll, List.filterMap_map, List.map_filterMap, Function.comp_def,
    placeOf_route]

/-- No two dependencies have the same place. -/
theorem places_nodup : ((edges.zipIdx.filter fun (d, _) => c.tree.Connects d).map Prod.snd).Nodup := by
  have hall : (edges.zipIdx.map Prod.snd).Nodup := by
    rw [List.zipIdx_map_snd]
    exact List.nodup_range'
  exact hall.sublist (List.filter_sublist.map _)

/-- Every edge id ends with the place of its dependency, so the ids of a projection are all different. -/
theorem edge_ids_distinct :
    (c.project edges f).edges.map (fun e => placeOf e.id) =
      (edges.zipIdx.filter fun (d, _) => c.tree.Connects d).map Prod.snd ∧
    ((c.project edges f).edges.map (·.id)).Nodup := by
  have hplaces := places_project c edges f
  refine ⟨hplaces, ?_⟩
  have hnodup := places_nodup c edges
  rw [← hplaces, ← Function.comp_def placeOf, ← List.map_map] at hnodup
  exact hnodup.of_map

end Foldergram
