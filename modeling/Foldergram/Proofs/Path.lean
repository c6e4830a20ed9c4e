import Foldergram.Path
import Mathlib.Data.List.Basic

/-! Slash paths are determined by their segments, and a child adds one segment to its folder. -/

namespace Foldergram.Path

variable {a b : List Char} {id name : String} {folder : Option String}

theorem cut_ne_nil (cs : List Char) : cut cs ≠ [] := by
  cases cs with
  | nil => simp [cut]
  | cons c cs =>
    unfold cut
    split
    · simp
    · split <;> simp

theorem cut_cons (c : Char) (cs : List Char) : ∃ first rest,
    cut cs = first :: rest ∧
      cut (c :: cs) = if c = '/' then [] :: first :: rest else (c :: first) :: rest := by
  cases h : cut cs with
  | nil => exact (cut_ne_nil cs h).elim
  | cons first rest => exact ⟨first, rest, rfl, by simp [cut, h]⟩

theorem cut_slash (a b : List Char) : cut (a ++ '/' :: b) = cut a ++ cut b := by
  induction a with
  | nil =>
    obtain ⟨first, rest, hb, hc⟩ := cut_cons '/' b
    simp [hc, hb, cut]
  | cons c a ih =>
    obtain ⟨first, rest, ha, hc⟩ := cut_cons c a
    obtain ⟨first', rest', hab, hc'⟩ := cut_cons c (a ++ '/' :: b)
    rw [ih, ha, List.cons_append, List.cons_eq_cons] at hab
    obtain ⟨rfl, rfl⟩ := hab
    rw [List.cons_append, hc', hc]
    split <;> simp

theorem cut_of_no_slash (h : '/' ∉ a) : cut a = [a] := by
  induction a with
  | nil => rfl
  | cons c a ih =>
    have hc : c ≠ '/' := by rintro rfl; simp at h
    have ha : cut a = [a] := ih (fun hm => h (List.mem_cons_of_mem _ hm))
    simp [cut, ha, hc]

theorem no_slash_of_mem_cut {part : List Char} (h : part ∈ cut a) : '/' ∉ part := by
  induction a generalizing part with
  | nil => simp_all [cut]
  | cons c a ih =>
    obtain ⟨first, rest, ha, hc⟩ := cut_cons c a
    rw [hc] at h
    rw [ha] at ih
    split at h
    · rcases List.mem_cons.mp h with rfl | h
      · simp
      · exact ih h
    · rename_i hne
      rcases List.mem_cons.mp h with rfl | h
      · have hf := ih (List.mem_cons_self ..)
        simp [hf, Ne.symm hne]
      · exact ih (List.mem_cons_of_mem _ h)

theorem cut_injective : Function.Injective cut := by
  intro a
  induction a with
  | nil =>
    intro b h
    cases b with
    | nil => rfl
    | cons d b =>
      obtain ⟨first, rest, _, hd⟩ := cut_cons d b
      rw [hd] at h
      split at h <;> simp [cut] at h
  | cons c a ih =>
    intro b h
    obtain ⟨first, rest, ha, hc⟩ := cut_cons c a
    cases b with
    | nil =>
      rw [hc] at h
      split at h <;> simp [cut] at h
    | cons d b =>
      obtain ⟨first', rest', hb, hd⟩ := cut_cons d b
      rw [hc, hd] at h
      split at h <;> split at h <;> simp_all
      all_goals exact ih (by simp [hb])

theorem segments_injective : Function.Injective segments := by
  intro a b h
  have hinj : Function.Injective String.ofList := fun x y he => by
    simpa using congrArg String.toList he
  exact String.toList_inj.mp (cut_injective (List.map_injective_iff.mpr hinj h))

theorem segments_ne_nil (id : String) : segments id ≠ [] := by
  simp [segments, cut_ne_nil]

theorem no_slash_of_mem_segments (h : name ∈ segments id) : '/' ∉ name.toList := by
  obtain ⟨part, hp, rfl⟩ := List.mem_map.mp h
  simpa using no_slash_of_mem_cut hp

theorem segments_of_no_slash (h : '/' ∉ name.toList) : segments name = [name] := by
  simp [segments, cut_of_no_slash h]

/-- The segments of a folder's id; the root adds none. -/
def segmentsOf : Option String → List String
  | none => []
  | some id => segments id

@[simp] theorem segmentsOf_none : segmentsOf none = [] := rfl

@[simp] theorem segmentsOf_some (id : String) : segmentsOf (some id) = segments id := rfl

theorem segments_child (h : '/' ∉ name.toList) :
    segments (child folder name) = segmentsOf folder ++ [name] := by
  cases folder with
  | none => exact segments_of_no_slash h
  | some id =>
    have hl : (child (some id) name).toList = id.toList ++ '/' :: name.toList := by
      simp [child, String.toList_append]
    simp [segments, segmentsOf, hl, cut_slash, cut_of_no_slash h]

/-- Neither path runs through the other. -/
def Apart (a b : String) : Prop :=
  ¬ segments a <+: segments b ∧ ¬ segments b <+: segments a

theorem Apart.symm {a b : String} (h : Apart a b) : Apart b a :=
  ⟨h.2, h.1⟩

end Foldergram.Path
