import Foldergram.Diagram.Export
import Mathlib.Data.List.Infix
import Mathlib.Logic.Function.Basic

/-!
Labels read back. In DOT a backslash makes the next character stand for itself, and backslashes are escaped
along with quotes: a label is read back whatever it holds. A Mermaid chart has entities for quotes, angle
brackets and braces, but none for the ampersand that every entity starts with. A label that spells out an
entity is written as it is and read as the character that the entity stands for.
-/

namespace Foldergram

theorem Text.toList_replaceChar (c : Char) (text s : String) :
    (replaceChar c text s).toList = s.toList.flatMap fun d => if d = c then text.toList else [d] :=
  String.toList_ofList

namespace Dot

/-- A character as it stands between quotes. -/
def quotedChar (c : Char) : List Char :=
  if c = '\\' ∨ c = '"' then ['\\', c] else [c]

/-- The characters up to the quote that ends them, and what stands behind it. A backslash makes the next
character stand for itself. -/
def readQuoted : List Char → Option (List Char × List Char)
  | [] => none
  | '"' :: rest => some ([], rest)
  | '\\' :: c :: rest => (readQuoted rest).map fun (text, rest) => (c :: text, rest)
  | c :: rest => (readQuoted rest).map fun (text, rest) => (c :: text, rest)

/-- What stands in a text before the quote that ends it, and what behind. -/
def unquote? (text : String) : Option (String × String) :=
  (readQuoted text.toList).map fun (label, rest) => (String.ofList label, String.ofList rest)

/-- Backslashes are doubled before the quotes get theirs, so both replacements act on each character of the
label once. -/
theorem toList_escapeLabel (s : String) : (escapeLabel s).toList = s.toList.flatMap quotedChar := by
  rw [escapeLabel, Text.toList_replaceChar, Text.toList_replaceChar, List.flatMap_assoc]
  apply List.flatMap_congr
  intro c _
  by_cases hslash : c = '\\'
  · subst hslash
    rfl
  · by_cases hquote : c = '"'
    · subst hquote
      rfl
    · simp [quotedChar, hslash, hquote]

theorem readQuoted_quotedChar (c : Char) (rest : List Char) :
    readQuoted (quotedChar c ++ rest) = (readQuoted rest).map fun (text, rest) => (c :: text, rest) := by
  by_cases h : c = '\\' ∨ c = '"'
  · rw [quotedChar, if_pos h]
    rfl
  · rw [quotedChar, if_neg h]
    obtain ⟨hslash, hquote⟩ := not_or.mp h
    rw [List.singleton_append, readQuoted]
    · exact hquote
    · rintro d rest' rfl
      exact absurd rfl hslash

/-- A label is read whole, and reading goes on with what stands behind it. -/
theorem readQuoted_append (s rest : List Char) :
    readQuoted (s.flatMap quotedChar ++ rest) =
      (readQuoted rest).map fun (text, rest) => (s ++ text, rest) := by
  induction s with
  | nil => simp
  | cons c s ih =>
    rw [List.flatMap_cons, List.append_assoc, readQuoted_quotedChar, ih, Option.map_map]
    rfl

theorem unquote?_append (s rest : String) :
    unquote? (escapeLabel s ++ rest) = (unquote? rest).map fun (text, rest) => (s ++ text, rest) := by
  rw [unquote?, unquote?, String.toList_append, toList_escapeLabel, readQuoted_append, Option.map_map,
    Option.map_map]
  congr 1
  funext ⟨text, rest⟩
  simp

/-- Whatever a label holds, it is read back from between its quotes, and reading stops right behind the quote
that was put there. So two labels are never written alike. Also where more text stands before that quote, the
label does not end early, and it takes nothing of what follows. -/
theorem label_reads_back :
    (∀ s r : String, unquote? (escapeLabel s ++ "\"" ++ r) = some (s, r)) ∧
    Function.Injective escapeLabel ∧
    ∀ s rest : String,
      unquote? (escapeLabel s ++ rest) = (unquote? rest).map fun (text, r) => (s ++ text, r) := by
  have hread : ∀ s r : String, unquote? (escapeLabel s ++ "\"" ++ r) = some (s, r) := by
    intro s r
    have hquote : unquote? ("\"" ++ r) = some ("", r) := by
      rw [unquote?, String.toList_append]
      change some (String.ofList [], String.ofList r.toList) = _
      rw [String.ofList_toList]
    rw [String.append_assoc, unquote?_append, hquote]
    simp
  refine ⟨hread, ?_, unquote?_append⟩
  intro s t h
  have hs := hread s ""
  rw [h, hread t ""] at hs
  exact (Prod.mk.inj (Option.some.inj hs)).1.symm

end Dot

namespace Mermaid

/-- The characters that are written as entities. -/
def special : List Char := ['"', '<', '>', '\x7b', '\x7d']

/-- A character as it stands in a label. -/
def labelChar : Char → List Char
  | '"' => ['&', 'q', 'u', 'o', 't', ';']
  | '<' => ['&', 'l', 't', ';']
  | '>' => ['&', 'g', 't', ';']
  | '\x7b' => ['&', '#', '1', '2', '3', ';']
  | '\x7d' => ['&', '#', '1', '2', '5', ';']
  | c => [c]

/-- Puts the characters for the entities, in one pass from left to right. -/
def readEntities : List Char → List Char
  | '&' :: 'q' :: 'u' :: 'o' :: 't' :: ';' :: rest => '"' :: readEntities rest
  | '&' :: 'l' :: 't' :: ';' :: rest => '<' :: readEntities rest
  | '&' :: 'g' :: 't' :: ';' :: rest => '>' :: readEntities rest
  | '&' :: '#' :: '1' :: '2' :: '3' :: ';' :: rest => '\x7b' :: readEntities rest
  | '&' :: '#' :: '1' :: '2' :: '5' :: ';' :: rest => '\x7d' :: readEntities rest
  | c :: rest => c :: readEntities rest
  | [] => []

/-- A label as it is shown. -/
def shown (text : String) : String :=
  String.ofList (readEntities text.toList)

theorem mem_special {c : Char} :
    c ∈ special ↔ c = '"' ∨ c = '<' ∨ c = '>' ∨ c = '\x7b' ∨ c = '\x7d' := by
  simp [special]

theorem labelChar_of_notMem {c : Char} (h : c ∉ special) : labelChar c = [c] := by
  rw [labelChar]
  all_goals
    rintro rfl
    exact h (by decide)

theorem toList_escapeLabel (s : String) : (escapeLabel s).toList = s.toList.flatMap labelChar := by
  simp only [escapeLabel, Text.toList_replaceChar, List.flatMap_assoc]
  apply List.flatMap_congr
  intro c _
  by_cases h : c ∈ special
  · rcases mem_special.mp h with rfl | rfl | rfl | rfl | rfl <;> rfl
  · rw [labelChar_of_notMem h]
    simp only [mem_special, not_or] at h
    simp only [h, if_false, List.flatMap_singleton]

/-- An entity starts with the ampersand, and what follows is written in a label as it is. -/
theorem labelChar_of_mem {c : Char} (h : c ∈ special) :
    ∃ name, labelChar c = '&' :: name ∧ ∀ d ∈ name, d ∉ special ∧ d ≠ '&' := by
  rcases mem_special.mp h with rfl | rfl | rfl | rfl | rfl <;> exact ⟨_, rfl, by simp [special]⟩

theorem readEntities_entity {c : Char} (h : c ∈ special) (rest : List Char) :
    readEntities (labelChar c ++ rest) = c :: readEntities rest := by
  rcases mem_special.mp h with rfl | rfl | rfl | rfl | rfl <;> rfl

/-- Where a text starts with no entity, its first character is read as it is. -/
theorem readEntities_plain {c : Char} {rest : List Char}
    (h : ∀ d ∈ special, ¬ labelChar d <+: c :: rest) :
    readEntities (c :: rest) = c :: readEntities rest := by
  rw [readEntities]
  · rintro rest' rfl rfl
    exact h '"' (by decide) ⟨rest', rfl⟩
  · rintro rest' rfl rfl
    exact h '<' (by decide) ⟨rest', rfl⟩
  · rintro rest' rfl rfl
    exact h '>' (by decide) ⟨rest', rfl⟩
  · rintro rest' rfl rfl
    exact h '\x7b' (by decide) ⟨rest', rfl⟩
  · rintro rest' rfl rfl
    exact h '\x7d' (by decide) ⟨rest', rfl⟩

/-- Induction along a text as it is read: entity by entity, several characters at a time, and character by
character between them. -/
theorem readEntities_induction {motive : List Char → Prop} (nil : motive [])
    (entity : ∀ c ∈ special, ∀ rest, motive rest → motive (labelChar c ++ rest))
    (plain : ∀ c rest, (∀ d ∈ special, ¬ labelChar d <+: c :: rest) → motive rest → motive (c :: rest))
    (text : List Char) : motive text := by
  induction hn : text.length using Nat.strongRecOn generalizing text with
  | _ n ih =>
    cases text with
    | nil => exact nil
    | cons c rest =>
      by_cases h : ∃ d ∈ special, labelChar d <+: c :: rest
      · obtain ⟨d, hd, behind, hbehind⟩ := h
        obtain ⟨name, hname, -⟩ := labelChar_of_mem hd
        have hlength : behind.length < n := by
          rw [← hn, ← hbehind, hname]
          simp only [List.cons_append, List.length_cons, List.length_append]
          omega
        rw [← hbehind]
        exact entity d hd behind (ih _ hlength behind rfl)
      · have hplain : ∀ d ∈ special, ¬ labelChar d <+: c :: rest := fun d hd hp => h ⟨d, hd, hp⟩
        exact plain c rest hplain (ih _ (by rw [← hn]; exact Nat.lt_succ_self _) rest rfl)

/-- Characters that are written as they are come from the label itself. -/
theorem prefix_of_prefix_flatMap {name : List Char} (h : ∀ d ∈ name, d ∉ special ∧ d ≠ '&') {s : List Char}
    (hp : name <+: s.flatMap labelChar) : name <+: s := by
  induction name generalizing s with
  | nil => exact List.nil_prefix
  | cons d name ih =>
    cases s with
    | nil => simp at hp
    | cons c s =>
      rw [List.flatMap_cons] at hp
      by_cases hc : c ∈ special
      · obtain ⟨entity, he, -⟩ := labelChar_of_mem hc
        rw [he, List.cons_append, List.cons_prefix_cons] at hp
        exact absurd hp.1 (h d (by simp)).2
      · rw [labelChar_of_notMem hc, List.singleton_append, List.cons_prefix_cons] at hp
        rw [List.cons_prefix_cons]
        exact ⟨hp.1, ih (fun x hx => h x (List.mem_cons_of_mem _ hx)) hp.2⟩

/-- If an entity stands where a character is written as it is, the label itself spells it out. -/
theorem prefix_of_prefix_cons_flatMap {c d : Char} {s : List Char} (hd : d ∈ special)
    (hp : labelChar d <+: c :: s.flatMap labelChar) : labelChar d <+: c :: s := by
  obtain ⟨name, he, hname⟩ := labelChar_of_mem hd
  rw [he, List.cons_prefix_cons] at hp ⊢
  exact ⟨hp.1, prefix_of_prefix_flatMap hname hp.2⟩

theorem flatMap_labelChar_entity {c : Char} (h : c ∈ special) :
    (labelChar c).flatMap labelChar = labelChar c := by
  rcases mem_special.mp h with rfl | rfl | rfl | rfl | rfl <;> rfl

/-- A written label shows what the label itself would show. -/
theorem readEntities_flatMap (s : List Char) : readEntities (s.flatMap labelChar) = readEntities s := by
  induction s using readEntities_induction with
  | nil => rfl
  | entity c hc rest ih =>
    rw [List.flatMap_append, flatMap_labelChar_entity hc, readEntities_entity hc, readEntities_entity hc, ih]
  | plain c rest h ih =>
    rw [readEntities_plain h, List.flatMap_cons]
    by_cases hc : c ∈ special
    · rw [readEntities_entity hc, ih]
    · have hplain : ∀ d ∈ special, ¬ labelChar d <+: c :: rest.flatMap labelChar :=
        fun d hd hp => h d hd (prefix_of_prefix_cons_flatMap hd hp)
      rw [labelChar_of_notMem hc, List.singleton_append, readEntities_plain hplain, ih]

/-- What a text shows is written as the text. -/
theorem flatMap_readEntities (s : List Char) :
    (readEntities s).flatMap labelChar = s.flatMap labelChar := by
  induction s using readEntities_induction with
  | nil => rfl
  | entity c hc rest ih =>
    rw [readEntities_entity hc, List.flatMap_cons, List.flatMap_append, flatMap_labelChar_entity hc, ih]
  | plain c rest h ih => rw [readEntities_plain h, List.flatMap_cons, List.flatMap_cons, ih]

theorem length_readEntities_le (s : List Char) : (readEntities s).length ≤ s.length := by
  induction s using readEntities_induction with
  | nil => exact Nat.le_refl _
  | entity c hc rest ih =>
    obtain ⟨name, he, -⟩ := labelChar_of_mem hc
    rw [readEntities_entity hc, he]
    simp only [List.length_cons, List.cons_append, List.length_append]
    omega
  | plain c rest h ih =>
    rw [readEntities_plain h]
    exact Nat.succ_le_succ ih

/-- A text shows itself exactly if it spells out no entity; otherwise it shows something shorter. -/
theorem readEntities_eq_self_iff (s : List Char) :
    readEntities s = s ↔ ∀ d ∈ special, ¬ labelChar d <:+: s := by
  induction s using readEntities_induction with
  | nil =>
    refine iff_of_true rfl fun d hd => ?_
    obtain ⟨name, he, -⟩ := labelChar_of_mem hd
    simp [he]
  | entity c hc rest ih =>
    refine iff_of_false ?_ fun h => h c hc ⟨[], rest, by simp⟩
    intro h
    rw [readEntities_entity hc] at h
    have hlength := congrArg List.length h
    have hle := length_readEntities_le rest
    have hlong : 1 < (labelChar c).length := by
      rcases mem_special.mp hc with rfl | rfl | rfl | rfl | rfl <;> decide
    rw [List.length_cons, List.length_append] at hlength
    omega
  | plain c rest h ih =>
    rw [readEntities_plain h, List.cons_inj_right, ih]
    constructor
    · intro hrest d hd hinfix
      rcases List.infix_cons_iff.mp hinfix with hp | hin
      · exact h d hd hp
      · exact hrest d hd hin
    · intro hall d hd hin
      exact hall d hd (List.infix_cons_iff.mpr (Or.inr hin))

theorem notMem_flatMap_labelChar {c : Char} (h : c ∈ special) (s : List Char) : c ∉ s.flatMap labelChar := by
  rw [List.mem_flatMap]
  rintro ⟨d, -, hc⟩
  by_cases hd : d ∈ special
  · obtain ⟨name, he, hname⟩ := labelChar_of_mem hd
    rw [he, List.mem_cons] at hc
    rcases hc with rfl | hc
    · exact absurd h (by decide)
    · exact (hname c hc).1 h
  · rw [labelChar_of_notMem hd, List.mem_singleton] at hc
    exact hd (hc ▸ h)

theorem shown_escapeLabel (s : String) : shown (escapeLabel s) = shown s := by
  rw [shown, toList_escapeLabel, readEntities_flatMap, shown]

/-- Labels are written alike if they show the same. -/
theorem escapeLabel_inj {s t : String} : escapeLabel s = escapeLabel t ↔ shown s = shown t := by
  constructor
  · intro h
    rw [← shown_escapeLabel s, h, shown_escapeLabel]
  · intro h
    have hread : readEntities s.toList = readEntities t.toList := String.ofList_injective h
    rw [← String.toList_inj, toList_escapeLabel, toList_escapeLabel, ← flatMap_readEntities, hread,
      flatMap_readEntities]

/-- When a label is shown as it is. None of the characters that have entities stands in a written label. It
shows what the label would show unwritten, so it shows the label itself exactly if the label spells out no
entity; and two labels are written alike exactly if they show the same. -/
theorem label_shown_iff (s t : String) :
    (∀ c ∈ special, c ∉ (escapeLabel s).toList) ∧
    shown (escapeLabel s) = shown s ∧
    (shown (escapeLabel s) = s ↔ ∀ c ∈ special, ¬ labelChar c <:+: s.toList) ∧
    (escapeLabel s = escapeLabel t ↔ shown s = shown t) := by
  refine ⟨?_, shown_escapeLabel s, ?_, escapeLabel_inj⟩
  · intro c hc
    rw [toList_escapeLabel]
    exact notMem_flatMap_labelChar hc _
  · rw [shown_escapeLabel, ← readEntities_eq_self_iff, ← String.toList_inj, shown, String.toList_ofList]

/-- A label that spells out an entity is shown as, and written like, the character that it stands for. -/
theorem labels_written_alike :
    escapeLabel "a&lt;b.ts" = escapeLabel "a<b.ts" ∧ shown (escapeLabel "a&lt;b.ts") = "a<b.ts" ∧
      "a&lt;b.ts" ≠ "a<b.ts" := by
  decide +kernel

end Mermaid

end Foldergram
