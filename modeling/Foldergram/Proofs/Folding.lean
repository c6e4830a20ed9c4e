import Foldergram.Folding
import Foldergram.Proofs.Tree.Lookup
import Mathlib.Data.List.Perm.Basic

/-! Foldings as maps. What a folding says of an id is what was last set there. -/

namespace Foldergram.Folding

variable {f g : Folding} {id : String} {flag : Bool} {entries entries' : List (String × Bool)}

@[simp] theorem get?_empty (id : String) : empty.get? id = none :=
  Std.ExtTreeMap.getElem?_empty

theorem get?_set (f : Folding) (id other : String) (expanded : Bool) :
    (f.set id expanded).get? other = if id = other then some expanded else f.get? other := by
  simp only [get?, set, Std.ExtTreeMap.getElem?_insert, Std.LawfulEqCmp.compare_eq_iff_eq]

theorem eq_of_get? (h : ∀ id, f.get? id = g.get? id) : f = g := by
  cases f
  cases g
  exact congrArg Folding.mk (Std.ExtTreeMap.ext_getElem? h)

theorem isCollapsed_set (f : Folding) (id other : String) (expanded : Bool) :
    (f.set id expanded).isCollapsed other = if id = other then !expanded else f.isCollapsed other := by
  rw [isCollapsed, get?_set]
  split
  · cases expanded <;> rfl
  · rfl

theorem set_comm (f : Folding) {id id' : String} (h : id ≠ id') (a b : Bool) :
    (f.set id a).set id' b = (f.set id' b).set id a := by
  apply eq_of_get?
  intro k
  simp only [get?_set]
  split
  · rename_i hk
    rw [if_neg (hk ▸ h)]
  · rfl

/-- Entries for different ids may come in any order. -/
theorem ofEntries_eq_of_perm (h : entries.Perm entries') (hd : (entries.map Prod.fst).Nodup) :
    ofEntries entries = ofEntries entries' := by
  apply h.foldl_eq'
  rintro ⟨id, a⟩ hx ⟨id', b⟩ hy f
  by_cases he : id = id'
  · obtain ⟨rfl, rfl⟩ := Prod.mk.inj (List.inj_on_of_nodup_map hd hx hy he)
    rfl
  · exact f.set_comm he a b

theorem mem_entries : (id, flag) ∈ f.entries ↔ f.get? id = some flag :=
  Std.ExtTreeMap.mem_toList_iff_getElem?_eq_some

theorem nodup_entries (f : Folding) : (f.entries.map Prod.fst).Nodup := by
  rw [entries, Std.ExtTreeMap.map_fst_toList_eq_keys]
  exact Std.ExtTreeMap.nodup_keys

/-- The entries are listed in the order of their ids. -/
theorem pairwise_entries (f : Folding) : (f.entries.map Prod.fst).Pairwise (· < ·) := by
  rw [entries, List.pairwise_map]
  have hordered := Std.ExtTreeMap.ordered_keys_toList (t := f.flags)
  exact hordered.imp fun h => compareOfLessAndEq_eq_lt.mp h

theorem mem_keys : id ∈ f.entries.map Prod.fst ↔ (f.get? id).isSome = true := by
  simp only [List.mem_map, Prod.exists, mem_entries, exists_and_right, exists_eq_right, Option.isSome_iff_exists]

/-- Sets one entry after another. -/
def setAll (f : Folding) (entries : List (String × Bool)) : Folding :=
  entries.foldl (fun f entry => f.set entry.1 entry.2) f

/-- The last flag for an id in a list of entries. -/
def lastFlag? (entries : List (String × Bool)) (id : String) : Option Bool :=
  ((entries.filter (·.1 = id)).map Prod.snd).getLast?

theorem lastFlag?_cons (entry : String × Bool) (entries : List (String × Bool)) (id : String) :
    lastFlag? (entry :: entries) id =
      (lastFlag? entries id).or (if entry.1 = id then some entry.2 else none) := by
  by_cases h : entry.1 = id
  · simp [lastFlag?, h, List.getLast?_cons, Option.or_some]
  · simp [lastFlag?, h]

/-- Of the entries for one id the last one counts. -/
theorem get?_setAll (f : Folding) (entries : List (String × Bool)) (id : String) :
    (f.setAll entries).get? id = (lastFlag? entries id).or (f.get? id) := by
  induction entries generalizing f with
  | nil => rfl
  | cons entry entries ih =>
    have hstep : (f.setAll (entry :: entries)) = (f.set entry.1 entry.2).setAll entries := rfl
    rw [hstep, ih, get?_set, lastFlag?_cons, Option.or_assoc]
    by_cases h : entry.1 = id <;> simp [h]

theorem setAll_append (f : Folding) (entries entries' : List (String × Bool)) :
    f.setAll (entries ++ entries') = (f.setAll entries).setAll entries' :=
  List.foldl_append

theorem lastFlag?_of_nodup (hd : (entries.map Prod.fst).Nodup) :
    lastFlag? entries id = some flag ↔ (id, flag) ∈ entries := by
  constructor
  · intro h
    obtain ⟨entry, he, rfl⟩ := List.mem_map.mp (List.mem_of_getLast? h)
    obtain ⟨hm, hid⟩ := List.mem_filter.mp he
    rwa [← of_decide_eq_true hid]
  · intro h
    have hone : entries.filter (·.1 = id) = [(id, flag)] := filter_key_eq_singleton hd h
    rw [lastFlag?, hone]
    rfl

theorem lastFlag?_map_const (ids : List String) (id : String) (flag : Bool) :
    lastFlag? (ids.map (·, flag)) id = if id ∈ ids then some flag else none := by
  induction ids with
  | nil => rfl
  | cons other ids ih =>
    rw [List.map_cons, lastFlag?_cons, ih]
    by_cases h : id ∈ ids
    · simp [h]
    · by_cases ho : other = id
      · simp [h, ho]
      · simp [h, ho, Ne.symm ho]

theorem lastFlag?_filter {keep : String → Bool} (h : keep id = true) (entries : List (String × Bool)) :
    lastFlag? (entries.filter (keep ·.1)) id = lastFlag? entries id := by
  rw [lastFlag?, lastFlag?, List.filter_filter]
  congr 2
  apply List.filter_congr
  intro entry _
  by_cases he : entry.1 = id <;> simp [he, h]

theorem lastFlag?_eq_none (h : ∀ entry ∈ entries, entry.1 ≠ id) : lastFlag? entries id = none := by
  have hnil : entries.filter (·.1 = id) = [] := by
    simpa [List.filter_eq_nil_iff] using h
  rw [lastFlag?, hnil]
  rfl

theorem get?_ofEntries (hd : (entries.map Prod.fst).Nodup) :
    (ofEntries entries).get? id = some flag ↔ (id, flag) ∈ entries := by
  have hset : ofEntries entries = empty.setAll entries := rfl
  rw [hset, get?_setAll, get?_empty, Option.or_none, lastFlag?_of_nodup hd]

theorem ofEntries_entries (f : Folding) : ofEntries f.entries = f := by
  apply eq_of_get?
  intro id
  ext flag
  rw [get?_ofEntries f.nodup_entries, mem_entries]

theorem get?_openAll (f : Folding) (id : String) : f.openAll.get? id = (f.get? id).map fun _ => true := by
  have hset : f.openAll = f.setAll ((f.entries.map Prod.fst).map (·, true)) := by
    simp [openAll, setAll, List.foldl_map]
  rw [hset, get?_setAll, lastFlag?_map_const]
  simp only [mem_keys]
  cases f.get? id <;> rfl

end Foldergram.Folding
