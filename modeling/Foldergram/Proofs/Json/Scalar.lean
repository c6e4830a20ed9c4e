import Foldergram.Json.Printer
import Foldergram.Json.Reader

/-!
Texts and whole numbers are read back as they are written. A text ends at the quote that was put behind it,
whatever it holds, and a number ends where no more of a numeral can follow.
-/

namespace Foldergram.Json

variable {c : Char} {n : Nat} {rest : List Char}

/-! ### Texts -/

theorem hexValue?_hexDigit (h : n < 16) : hexValue? (hexDigit n) = some n := by
  have hall : ∀ n < 16, hexValue? (hexDigit n) = some n := by decide
  exact hall n h

theorem hexUnit?_control (h : n < 0x20) :
    hexUnit? '0' '0' (hexDigit (n / 16)) (hexDigit (n % 16)) = some n := by
  have hzero : hexValue? '0' = some 0 := rfl
  have hhigh := hexValue?_hexDigit (n := n / 16) (by omega)
  have hlow := hexValue?_hexDigit (n := n % 16) (by omega)
  simp only [hexUnit?, hzero, hhigh, hlow, Option.bind_eq_bind, Option.bind_some, Option.pure_def,
    Option.some.injEq]
  omega

theorem readText_letter {e : Char} (hu : e ≠ 'u') (he : escaped? e = some c) (rest : List Char) :
    readText ('\\' :: e :: rest) = (readText rest).map fun (text, rest) => (c :: text, rest) := by
  rw [readText]
  · rw [he]
    cases readText rest <;> rfl
  · rintro _ _ _ _ _ rfl
    exact absurd rfl hu

theorem readText_control (h : c.toNat < 0x20) (rest : List Char) :
    readText ('\\' :: 'u' :: '0' :: '0' :: hexDigit (c.toNat / 16) :: hexDigit (c.toNat % 16) :: rest) =
      (readText rest).map fun (text, rest) => (c :: text, rest) := by
  have hlow : ¬ (0xDC00 ≤ c.toNat ∧ c.toNat < 0xE000) := by omega
  have hhigh : ¬ (0xD800 ≤ c.toNat ∧ c.toNat < 0xDC00) := by omega
  rw [readText, hexUnit?_control h, Option.bind_eq_bind, Option.bind_some, if_neg hlow, if_neg hhigh,
    Char.ofNat_toNat]
  cases readText rest <;> rfl

theorem readText_plain (hquote : c ≠ '"') (hslash : c ≠ '\\') (h : ¬ c.toNat < 0x20) (rest : List Char) :
    readText (c :: rest) = (readText rest).map fun (text, rest) => (c :: text, rest) := by
  rw [readText, if_neg (not_or.mpr ⟨h, hslash⟩)]
  · cases readText rest <;> rfl
  · exact hquote
  · exact fun _ _ _ _ _ hc _ => hslash hc
  · exact fun _ _ hc _ => hslash hc

/-- A character is written as an escape letter, as a unit of four digits or as it is. -/
theorem escapeChar_cases (c : Char) :
    (∃ e, escapeChar c = ['\\', e] ∧ escaped? e = some c ∧ e ≠ 'u') ∨
    (escapeChar c = ['\\', 'u', '0', '0', hexDigit (c.toNat / 16), hexDigit (c.toNat % 16)] ∧
      c.toNat < 0x20) ∨
    (escapeChar c = [c] ∧ c ≠ '"' ∧ c ≠ '\\' ∧ ¬ c.toNat < 0x20) := by
  by_cases hletter : c ∈ ['"', '\\', '\x08', '\t', '\n', '\x0c', '\r']
  · simp only [List.mem_cons, List.not_mem_nil, or_false] at hletter
    rcases hletter with rfl | rfl | rfl | rfl | rfl | rfl | rfl <;> exact Or.inl ⟨_, rfl, rfl, by decide⟩
  · simp only [List.mem_cons, List.not_mem_nil, or_false, not_or] at hletter
    by_cases hcontrol : c.toNat < 0x20 <;> simp [escapeChar, hletter, hcontrol]

/-- A character of a text is read back, and reading goes on behind it. -/
theorem readText_escapeChar (c : Char) (rest : List Char) :
    readText (escapeChar c ++ rest) = (readText rest).map fun (text, rest) => (c :: text, rest) := by
  rcases escapeChar_cases c with ⟨e, heq, he, hu⟩ | ⟨heq, hcontrol⟩ | ⟨heq, hquote, hslash, hcontrol⟩
  · rw [heq]
    exact readText_letter hu he rest
  · rw [heq]
    exact readText_control hcontrol rest
  · rw [heq]
    exact readText_plain hquote hslash hcontrol rest

/-- A text is read up to the quote behind it. -/
theorem readText_append (s rest : List Char) :
    readText (s.flatMap escapeChar ++ '"' :: rest) = some (s, rest) := by
  induction s with
  | nil => rfl
  | cons c s ih =>
    rw [List.flatMap_cons, List.append_assoc, readText_escapeChar, ih]
    rfl

/-! ### Whole numbers -/

/-- Nothing in front that a numeral could go on with. -/
def Delimited (rest : List Char) : Prop :=
  ∀ c ∈ rest.head?, c.isDigit = false ∧ c ≠ '.' ∧ c ≠ 'e' ∧ c ≠ 'E'

theorem exists_toDigits_eq_cons (n : Nat) : ∃ d ds, Nat.toDigits 10 n = d :: ds ∧ d.isDigit = true := by
  obtain ⟨d, ds, hds⟩ := List.exists_cons_of_ne_nil (Nat.toDigits_ne_nil (n := n) (b := 10))
  refine ⟨d, ds, hds, Nat.isDigit_of_mem_toDigits (b := 10) (n := n) (by decide) (by decide) ?_⟩
  simp [hds]

theorem toDigits_append_ne (h : c.isDigit = false) (n : Nat) (rest cs : List Char) :
    Nat.toDigits 10 n ++ rest ≠ c :: cs := by
  obtain ⟨d, ds, hds, hd⟩ := exists_toDigits_eq_cons n
  rw [hds]
  rintro ⟨⟩
  exact absurd hd (by simp [h])

theorem head?_toDigits_ne (h : 0 < n) : (Nat.toDigits 10 n).head? ≠ some '0' := by
  induction n using Nat.strongRecOn with
  | _ n ih =>
    by_cases hn : n < 10
    · have hall : ∀ m < 10, 0 < m → some m.digitChar ≠ some '0' := by decide
      rw [Nat.toDigits_of_lt_base hn]
      exact hall n hn h
    · have hfront := ih (n / 10) (by omega) (by omega)
      obtain ⟨d, ds, hds, -⟩ := exists_toDigits_eq_cons (n / 10)
      rw [Nat.toDigits_of_base_le (by decide) (by omega), hds]
      rwa [hds] at hfront

theorem readDigits_append {digits : List Char} (hne : digits ≠ []) (hd : ∀ c ∈ digits, c.isDigit = true)
    (hrest : Delimited rest) : readDigits (digits ++ rest) = some (digits, rest) := by
  have hstop : rest.takeWhile Char.isDigit = [] ∧ rest.dropWhile Char.isDigit = rest := by
    cases rest with
    | nil => exact ⟨rfl, rfl⟩
    | cons c rest => simp [(hrest c rfl).1]
  rw [readDigits, List.takeWhile_append_of_pos hd, List.dropWhile_append_of_pos hd, hstop.1, hstop.2,
    List.append_nil]
  cases digits with
  | nil => exact absurd rfl hne
  | cons d digits => rfl

theorem readFraction_of_delimited (hrest : Delimited rest) : readFraction rest = some ([], rest) := by
  rw [readFraction]
  rintro cs rfl
  exact absurd rfl (hrest '.' rfl).2.1

theorem readExponent_of_delimited (hrest : Delimited rest) : readExponent rest = some (none, rest) := by
  cases rest with
  | nil => rfl
  | cons c rest =>
    obtain ⟨-, -, he, hE⟩ := hrest c rfl
    simp [readExponent, he, hE]

theorem readWhole_toDigits (n : Nat) (hrest : Delimited rest) :
    readWhole (Nat.toDigits 10 n ++ rest) = some (Nat.toDigits 10 n, rest) := by
  have hdigits : ∀ c ∈ Nat.toDigits 10 n, c.isDigit = true :=
    fun c hc => Nat.isDigit_of_mem_toDigits (by decide) (by decide) hc
  have hzero : ¬ ((Nat.toDigits 10 n).head? = some '0' ∧ (Nat.toDigits 10 n).length ≠ 1) := by
    rcases Nat.eq_zero_or_pos n with rfl | hn
    · simp
    · exact fun h => head?_toDigits_ne hn h.1
  rw [readWhole, readDigits_append Nat.toDigits_ne_nil hdigits hrest]
  exact if_neg hzero

/-- The digits of a number are a numeral, and it ends with them. -/
theorem readNumeral_toDigits (n : Nat) (hrest : Delimited rest) :
    readNumeral (Nat.toDigits 10 n ++ rest) = some (⟨false, Nat.toDigits 10 n, [], none⟩, rest) := by
  rw [readNumeral, readUnsigned, readWhole_toDigits n hrest]
  · simp [readFraction_of_delimited hrest, readExponent_of_delimited hrest]
  · exact toDigits_append_ne (by decide) n rest

theorem le_ofDigitChars (digits : List Char) (n : Nat) : n ≤ Nat.ofDigitChars 10 digits n := by
  induction digits generalizing n with
  | nil => exact Nat.le_refl n
  | cons d digits ih =>
    rw [Nat.ofDigitChars_cons]
    exact Nat.le_trans (by omega) (ih _)

/-- All digits are taken as long as the whole number fits. -/
theorem absorb_eq {digits : List Char} (h : Nat.ofDigitChars 10 digits n ≤ wordLimit) :
    absorb n digits = (Nat.ofDigitChars 10 digits n, digits.length) := by
  induction digits generalizing n with
  | nil => rfl
  | cons d digits ih =>
    have hnext : n * 10 + digitValue d = 10 * n + (d.toNat - '0'.toNat) := by
      rw [digitValue, Nat.mul_comm]
    rw [Nat.ofDigitChars_cons, ← hnext] at h ⊢
    have hfits : n * 10 + digitValue d ≤ wordLimit := Nat.le_trans (le_ofDigitChars ..) h
    simp [absorb, hfits, ih h]

theorem value?_toDigits (h : n ≤ wordLimit) :
    (Numeral.mk false (Nat.toDigits 10 n) [] none).value? = some (.int n) := by
  have hvalue := Nat.ofDigitChars_ten_toDigits (n := n)
  have habsorb : absorb 0 (Nat.toDigits 10 n) = (n, (Nat.toDigits 10 n).length) := by
    rw [absorb_eq (by rwa [hvalue]), hvalue]
  simp [Numeral.value?, habsorb]

theorem readScalar_toDigits (h : n ≤ wordLimit) (hrest : Delimited rest) :
    readScalar (Nat.toDigits 10 n ++ rest) = some (.int n, rest) := by
  rw [readScalar, readNumeral_toDigits n hrest]
  · simp [value?_toDigits h]
  all_goals exact fun cs => toDigits_append_ne (by decide) n rest _

end Foldergram.Json
