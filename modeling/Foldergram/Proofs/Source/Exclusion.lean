import Foldergram.Session
import Mathlib.Data.List.Basic

/-!
Leaving files out in steps. A dependency goes with the files that are there when it is looked at, and a later
step finds fewer of them; still it does not matter in how many steps files are left out, or in which order.
-/

namespace Foldergram

namespace SourceGraph

variable {g : SourceGraph} {excluded a b : String → Bool} {id : String}

attribute [ext] SourceGraph

/-- The ids of the files that are kept for their ids. -/
theorem mem_ids_filter (files : List SourceFile) (keep : String → Bool) :
    id ∈ (files.filter (keep ·.id)).map (·.id) ↔ id ∈ files.map (·.id) ∧ keep id = true := by
  simp only [List.mem_map, List.mem_filter]
  constructor
  · rintro ⟨file, ⟨hf, hk⟩, rfl⟩
    exact ⟨⟨file, hf, rfl⟩, hk⟩
  · rintro ⟨⟨file, hf, rfl⟩, hk⟩
    exact ⟨file, ⟨hf, hk⟩, rfl⟩

theorem mem_excludedIds :
    id ∈ g.excludedIds excluded ↔ id ∈ g.files.map (·.id) ∧ excluded id = true :=
  mem_ids_filter ..

/-- Whether a file goes depends on its own id alone, even if the id is repeated. -/
theorem files_exclude (g : SourceGraph) (excluded : String → Bool) :
    (g.exclude excluded).files = g.files.filter (!excluded ·.id) := by
  apply List.filter_congr
  intro file hf
  have hgone : (g.excludedIds excluded).contains file.id = excluded file.id := by
    rw [Bool.eq_iff_iff, List.contains_iff_mem, mem_excludedIds, and_iff_right (List.mem_map_of_mem hf)]
  rw [hgone]

theorem mem_files_exclude {file : SourceFile} :
    file ∈ (g.exclude excluded).files ↔ file ∈ g.files ∧ excluded file.id = false := by
  rw [files_exclude, List.mem_filter, Bool.not_eq_true']

theorem dependencies_exclude (g : SourceGraph) (excluded : String → Bool) :
    (g.exclude excluded).dependencies = g.dependencies.filter fun d =>
      d.source ∉ g.excludedIds excluded ∧ d.target ∉ g.excludedIds excluded := by
  apply List.filter_congr
  intro d _
  simp

/-- A dependency stays if it ends at no file that goes. -/
theorem spared_iff {d : Dependency} :
    (d.source ∉ g.excludedIds excluded ∧ d.target ∉ g.excludedIds excluded) ↔
      ∀ file ∈ g.files, excluded file.id = true → d.source ≠ file.id ∧ d.target ≠ file.id := by
  simp only [mem_excludedIds, List.mem_map, not_and]
  constructor
  · rintro ⟨hs, ht⟩ file hf he
    exact ⟨fun h => hs ⟨file, hf, h.symm⟩ (h ▸ he), fun h => ht ⟨file, hf, h.symm⟩ (h ▸ he)⟩
  · intro h
    constructor
    · rintro ⟨file, hf, hid⟩ he
      exact (h file hf (hid ▸ he)).1 hid.symm
    · rintro ⟨file, hf, hid⟩ he
      exact (h file hf (hid ▸ he)).2 hid.symm

theorem mem_dependencies_exclude {d : Dependency} : d ∈ (g.exclude excluded).dependencies ↔
    d ∈ g.dependencies ∧ d.source ∉ g.excludedIds excluded ∧ d.target ∉ g.excludedIds excluded := by
  rw [dependencies_exclude, List.mem_filter, decide_eq_true_iff]

/-- A second step takes the files that the first one has left; together they take what both exclude. -/
theorem mem_excludedIds_or : id ∈ g.excludedIds (fun id => a id || b id) ↔
    id ∈ g.excludedIds a ∨ id ∈ (g.exclude a).excludedIds b := by
  have hleft : id ∈ (g.exclude a).files.map (·.id) ↔ id ∈ g.files.map (·.id) ∧ (!a id) = true := by
    rw [files_exclude]
    exact mem_ids_filter g.files (!a ·)
  rw [mem_excludedIds, mem_excludedIds, mem_excludedIds, hleft]
  cases a id <;> simp

theorem exclude_exclude (g : SourceGraph) (a b : String → Bool) :
    (g.exclude a).exclude b = g.exclude fun id => a id || b id := by
  apply SourceGraph.ext
  · simp only [files_exclude, List.filter_filter, Bool.not_or, Bool.and_comm]
  · rw [dependencies_exclude (g.exclude a), dependencies_exclude g, dependencies_exclude g,
      List.filter_filter]
    apply List.filter_congr
    intro d _
    rw [← Bool.decide_and, decide_eq_decide]
    simp only [mem_excludedIds_or, not_or]
    exact ⟨fun ⟨⟨hs, ht⟩, hs', ht'⟩ => ⟨⟨hs', hs⟩, ht', ht⟩,
      fun ⟨⟨hs', hs⟩, ht', ht⟩ => ⟨⟨hs, ht⟩, hs', ht'⟩⟩

theorem excludedCount_add_length (g : SourceGraph) (excluded : String → Bool) :
    g.excludedCount excluded + (g.exclude excluded).files.length = g.files.length := by
  have hle : (g.exclude excluded).files.length ≤ g.files.length := by
    rw [files_exclude]
    exact List.length_filter_le _ _
  rw [excludedCount]
  omega

theorem excludedCount_eq_countP (g : SourceGraph) (excluded : String → Bool) :
    g.excludedCount excluded = g.files.countP (excluded ·.id) := by
  have hsum := g.excludedCount_add_length excluded
  have hsplit := List.length_eq_countP_add_countP (fun file : SourceFile => excluded file.id) (l := g.files)
  rw [files_exclude, ← List.countP_eq_length_filter] at hsum
  simp only [Bool.not_eq_true, Bool.decide_eq_false] at hsplit
  omega

theorem exclude_any_append {α : Type} (accepts : α → String → Bool) (g : SourceGraph)
    (first second : List α) :
    g.exclude (fun id => (first ++ second).any (accepts · id)) =
      (g.exclude fun id => first.any (accepts · id)).exclude fun id => second.any (accepts · id) := by
  simp only [exclude_exclude, List.any_append]

theorem excludedCount_or (g : SourceGraph) (a b : String → Bool) :
    g.excludedCount (fun id => a id || b id) = g.excludedCount a + (g.exclude a).excludedCount b := by
  have hfirst := g.excludedCount_add_length a
  have hsecond := (g.exclude a).excludedCount_add_length b
  have hboth := g.excludedCount_add_length fun id => a id || b id
  rw [exclude_exclude] at hsecond
  omega

end SourceGraph

open SourceGraph

/-- Exclusion, whatever the patterns accept. It keeps the files that no pattern accepts and the dependencies
that end at none of the files dropped, each in its order, and reports how many files it drops. Patterns may be
applied at once or one part after the other, in either order: the same graph is left and the numbers add up.
Applied again, they drop nothing. -/
theorem exclusion_in_steps {α : Type} (accepts : α → String → Bool) (g : SourceGraph)
    (first second : List α) :
    let without (g : SourceGraph) (patterns : List α) := g.exclude fun id => patterns.any (accepts · id)
    let dropped (g : SourceGraph) (patterns : List α) := g.excludedCount fun id => patterns.any (accepts · id)
    (without g first).files = g.files.filter (fun file => ∀ p ∈ first, accepts p file.id = false) ∧
    (without g first).dependencies = g.dependencies.filter (fun d =>
      ∀ file ∈ g.files, (∃ p ∈ first, accepts p file.id = true) → d.source ≠ file.id ∧ d.target ≠ file.id) ∧
    dropped g first = g.files.countP (fun file => ∃ p ∈ first, accepts p file.id = true) ∧
    without g (first ++ second) = without (without g first) second ∧
    without g (first ++ second) = without (without g second) first ∧
    dropped g (first ++ second) = dropped g first + dropped (without g first) second ∧
    dropped g (first ++ second) = dropped g second + dropped (without g second) first ∧
    without (without g first) first = without g first ∧
    dropped (without g first) first = 0 := by
  intro without dropped
  have hgraph : ∀ first second, without g (first ++ second) = without (without g first) second :=
    exclude_any_append accepts g
  have hcount : ∀ first second,
      dropped g (first ++ second) = dropped g first + dropped (without g first) second := by
    intro first second
    simp only [without, dropped, List.any_append, excludedCount_or]
  have hcomm : ∀ id, (first ++ second).any (accepts · id) = (second ++ first).any (accepts · id) := by
    intro id
    rw [List.any_append, List.any_append, Bool.or_comm]
  have hself : without (without g first) first = without g first := by
    simp only [without, exclude_exclude, Bool.or_self]
  refine ⟨?_, ?_, ?_, hgraph first second, ?_, hcount first second, ?_, hself, ?_⟩
  · simp only [without, files_exclude]
    apply List.filter_congr
    intro file _
    rw [Bool.eq_iff_iff, Bool.not_eq_true', List.any_eq_false, decide_eq_true_iff]
    simp
  · simp only [without, dependencies_exclude]
    apply List.filter_congr
    intro d _
    rw [decide_eq_decide, spared_iff]
    simp only [List.any_eq_true]
  · simp only [dropped, excludedCount_eq_countP]
    apply List.countP_congr
    intro file _
    rw [List.any_eq_true, decide_eq_true_iff]
  · simp only [without, hcomm]
    exact hgraph second first
  · simp only [dropped, hcomm]
    exact hcount second first
  · have hsum := (without g first).excludedCount_add_length fun id => first.any (accepts · id)
    have hlength := congrArg (·.files.length) hself
    simp only [without, dropped] at hsum hlength ⊢
    omega

/-- What some patterns of a session accept may be left out before a session with the others loads the graph:
the answer is the same, and so is what has been loaded. -/
theorem Session.load_append_patterns (s : Session) (first second : List Glob.Pattern) (g : SourceGraph) :
    let having (patterns : List Glob.Pattern) : Session := { s with patterns := patterns }
    let atOnce := (having (first ++ second)).load g
    let inSteps := (having second).load (g.exclude (having first).isExcluded)
    atOnce.result = inSteps.result ∧ atOnce.session.loaded = inSteps.session.loaded := by
  intro having atOnce inSteps
  have hleft : g.exclude (having (first ++ second)).isExcluded =
      (g.exclude (having first).isExcluded).exclude (having second).isExcluded :=
    exclude_any_append Glob.Pattern.accepts g first second
  simp only [atOnce, inSteps, load, hleft]
  cases FolderTree.build ((g.exclude (having first).isExcluded).exclude (having second).isExcluded).files with
  | error collision => exact ⟨rfl, rfl⟩
  | ok tree => exact ⟨rfl, rfl⟩

end Foldergram
