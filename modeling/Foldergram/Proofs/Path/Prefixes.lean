import Foldergram.Proofs.Path
import Mathlib.Data.List.Infix

/-!
The prefixes of a slash path. A text that runs up to a slash of an id, or up to its end, is the same as a
first part of its segments.
-/

namespace Foldergram.Path

variable {a b p id name : String} {folder : Option String} {names : List String}

theorem segments_append_slash (a b : String) : segments (a ++ "/" ++ b) = segments a ++ segments b := by
  have hl : (a ++ "/" ++ b).toList = a.toList ++ '/' :: b.toList := by simp [String.toList_append]
  simp [segments, hl, cut_slash]

theorem segments_intercalate (hne : names ≠ []) (h : ∀ name ∈ names, '/' ∉ name.toList) :
    segments ("/".intercalate names) = names := by
  induction names with
  | nil => exact absurd rfl hne
  | cons name names ih =>
    have hname := segments_of_no_slash (h name (List.mem_cons_self ..))
    cases names with
    | nil => rw [String.intercalate_singleton, hname]
    | cons next names =>
      have hrest := ih (by simp) (fun n hn => h n (List.mem_cons_of_mem _ hn))
      rw [String.intercalate_cons_cons, segments_append_slash, hname, hrest, List.singleton_append]

/-- A first part of the segments of an id, joined again. -/
theorem segments_of_isPrefix (hne : names ≠ []) (h : names <+: segments id) :
    segments ("/".intercalate names) = names :=
  segments_intercalate hne (fun _ hn => no_slash_of_mem_segments (h.subset hn))

theorem intercalate_segments (id : String) : "/".intercalate (segments id) = id :=
  segments_injective (segments_of_isPrefix (segments_ne_nil id) List.prefix_rfl)

/-- A path runs through an id, or ends there, if the id is the whole of it or is followed by a slash. -/
theorem isPrefix_segments_iff :
    segments a <+: segments b ↔ a = b ∨ (a ++ "/").toList <+: b.toList := by
  constructor
  · rintro ⟨rest, hr⟩
    by_cases hne : rest = []
    · left
      apply segments_injective
      rw [← hr, hne, List.append_nil]
    · right
      have hb : b = a ++ "/" ++ "/".intercalate rest := by
        rw [← intercalate_segments b, ← hr,
          String.intercalate_append_of_ne_nil (segments_ne_nil a) hne, intercalate_segments]
      rw [hb, String.toList_append (s := a ++ "/")]
      exact List.prefix_append ..
  · rintro (rfl | ⟨rest, hr⟩)
    · exact List.prefix_rfl
    · have hb : b = a ++ "/" ++ String.ofList rest := by
        apply String.toList_inj.mp
        rw [← hr, String.toList_append (s := a ++ "/"), String.toList_ofList]
      rw [hb, segments_append_slash]
      exact List.prefix_append ..

theorem not_slash_isPrefix_self (a : String) : ¬ (a ++ "/").toList <+: a.toList := by
  intro h
  have hl := h.length_le
  have hslash : "/".toList.length = 1 := rfl
  rw [String.toList_append, List.length_append] at hl
  omega

/-- The folder of a path; a path of one segment has none. -/
def folder? (id : String) : Option String :=
  if (segments id).dropLast = [] then none else some ("/".intercalate (segments id).dropLast)

theorem segmentsOf_folder? (id : String) : segmentsOf (folder? id) = (segments id).dropLast := by
  unfold folder?
  split
  · rename_i h
    rw [h, segmentsOf_none]
  · rename_i h
    exact segments_of_isPrefix h (List.dropLast_prefix _)

theorem folder?_eq (h : segments id = segmentsOf folder ++ [name]) : folder? id = folder := by
  rw [folder?, h, List.dropLast_concat]
  cases folder with
  | none => rfl
  | some f => rw [segmentsOf_some, if_neg (segments_ne_nil f), intercalate_segments]

/-- The prefixes of an id that end with a segment, from the first segment to the whole id. -/
def prefixes (id : String) : List String :=
  (segments id).inits.tail.map ("/".intercalate ·)

/-- The prefixes of a folder's id; the root adds none. -/
def prefixesOf : Option String → List String
  | none => []
  | some id => prefixes id

theorem prefixes_concat (h : segments id = segmentsOf folder ++ [name]) :
    prefixes id = prefixesOf folder ++ [id] := by
  have hid : "/".intercalate (segmentsOf folder ++ [name]) = id := by rw [← h, intercalate_segments]
  have htail : (segmentsOf folder).inits.tail.map ("/".intercalate ·) = prefixesOf folder := by
    cases folder <;> rfl
  rw [prefixes, h, List.inits_append, List.tail_append_of_ne_nil (by cases segmentsOf folder <;> simp),
    List.map_append, htail]
  simp [hid]

/-- All prefixes but the id itself. -/
theorem prefixes_eq (id : String) : prefixes id = prefixesOf (folder? id) ++ [id] := by
  have h : segments id = segmentsOf (folder? id) ++ [(segments id).getLast (segments_ne_nil id)] := by
    rw [segmentsOf_folder?, List.dropLast_append_getLast]
  exact prefixes_concat h

theorem mem_prefixes : p ∈ prefixes id ↔ segments p <+: segments id := by
  have hmem : ∀ names, names ∈ (segments id).inits.tail ↔ names ≠ [] ∧ names <+: segments id := by
    intro names
    cases hs : segments id with
    | nil => exact absurd hs (segments_ne_nil id)
    | cons first rest =>
      cases names with
      | nil => simp
      | cons name names => simp [List.cons_prefix_cons, and_comm, eq_comm]
  rw [prefixes, List.mem_map]
  constructor
  · rintro ⟨names, hn, rfl⟩
    obtain ⟨hne, hp⟩ := (hmem names).mp hn
    rwa [segments_of_isPrefix hne hp]
  · intro hp
    exact ⟨segments p, (hmem _).mpr ⟨segments_ne_nil p, hp⟩, intercalate_segments p⟩

theorem length_segments_folder? (h : folder? id = some p) :
    (segments p).length < (segments id).length := by
  have hs := segmentsOf_folder? id
  have hpos := List.length_pos_of_ne_nil (segments_ne_nil id)
  rw [h, segmentsOf_some] at hs
  rw [hs, List.length_dropLast]
  omega

/-- The prefixes before the id itself are those that a slash follows. -/
theorem mem_prefixesOf_folder? :
    p ∈ prefixesOf (folder? id) ↔ (p ++ "/").toList <+: id.toList := by
  constructor
  · intro hp
    have hm : p ∈ prefixes id := by
      rw [prefixes_eq]
      exact List.mem_append_left _ hp
    rcases isPrefix_segments_iff.mp (mem_prefixes.mp hm) with rfl | hs
    · cases hf : folder? p with
      | none => simp [hf, prefixesOf] at hp
      | some f =>
        rw [hf] at hp
        have hle := (mem_prefixes.mp hp).length_le
        have hlt := length_segments_folder? hf
        omega
    · exact hs
  · intro hs
    have hm : p ∈ prefixes id := mem_prefixes.mpr (isPrefix_segments_iff.mpr (Or.inr hs))
    rw [prefixes_eq, List.mem_append, List.mem_singleton] at hm
    rcases hm with hm | rfl
    · exact hm
    · exact absurd hs (not_slash_isPrefix_self p)

theorem length_segments_of_slash (h : (a ++ "/").toList <+: b.toList) :
    (segments a).length < (segments b).length := by
  have hp := isPrefix_segments_iff.mpr (Or.inr h)
  rcases Nat.lt_or_eq_of_le hp.length_le with hlt | he
  · exact hlt
  · rw [segments_injective (hp.eq_of_length he)] at h
    exact absurd h (not_slash_isPrefix_self b)

/-- Each prefix goes on to the next ones with a slash. By induction on the folders around the path. -/
theorem pairwise_prefixes (id : String) :
    (prefixes id).Pairwise fun p q => (p ++ "/").toList <+: q.toList := by
  generalize hn : (segments id).length = n
  induction n using Nat.strong_induction_on generalizing id with
  | _ n ih =>
    rw [prefixes_eq, List.pairwise_append]
    refine ⟨?_, List.pairwise_singleton .., ?_⟩
    · cases hf : folder? id with
      | none => exact List.Pairwise.nil
      | some f => exact ih _ (hn ▸ length_segments_folder? hf) f rfl
    · intro p hp q hq
      rw [List.mem_singleton.mp hq]
      exact mem_prefixesOf_folder?.mp hp

theorem nodup_prefixes (id : String) : (prefixes id).Nodup := by
  refine (pairwise_prefixes id).imp ?_
  rintro p _ hs rfl
  exact not_slash_isPrefix_self p hs

/-- The ids that a path meets from a folder on. -/
def trail (folder : Option String) : List String → List String
  | [] => []
  | name :: names => child folder name :: trail (some (child folder name)) names

theorem prefixesOf_append_trail (h : segments id = segmentsOf folder ++ names) :
    prefixesOf folder ++ trail folder names = prefixes id := by
  induction names generalizing folder with
  | nil =>
    rw [List.append_nil] at h
    cases folder with
    | none => exact absurd h (segments_ne_nil id)
    | some f => simp [prefixesOf, trail, segments_injective h]
  | cons name names ih =>
    have hname : name ∈ segments id := by simp [h]
    have hchild : segments (child folder name) = segmentsOf folder ++ [name] :=
      segments_child (no_slash_of_mem_segments hname)
    have hrest : segments id = segmentsOf (some (child folder name)) ++ names := by
      simp [hchild, h]
    rw [← ih hrest, trail]
    simp [prefixesOf, prefixes_concat hchild]

/-- A path meets nothing but ids below the folder that it comes from. -/
theorem slash_of_mem_trail (h : segments id = segments a ++ names) (hp : p ∈ trail (some a) names) :
    (a ++ "/").toList <+: p.toList := by
  have hall := pairwise_prefixes id
  have hsplit : prefixesOf (some a) ++ trail (some a) names = prefixes id := prefixesOf_append_trail h
  rw [← hsplit, List.pairwise_append] at hall
  have ha : a ∈ prefixesOf (some a) := mem_prefixes.mpr List.prefix_rfl
  exact hall.2.2 a ha p hp

theorem trail_segments (id : String) : trail none (segments id) = prefixes id := by
  have h : segments id = segmentsOf none ++ segments id := rfl
  exact prefixesOf_append_trail h

end Foldergram.Path
