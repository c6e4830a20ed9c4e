import Foldergram.Proofs.Json.Scalar

/-!
Values are read back from their text. The text of a value may stand behind blanks, and anything may follow it
that a numeral could not go on with. The argument follows the reader: what the reader for one level less takes,
the loops over items and fields take one after another.
-/

namespace Foldergram.Json

variable {v x : Json} {items : List Json} {fields : List (String × Json)} {key : String} {c : Char}
  {read : List Char → Option (Json × List Char)} {levels level : Nat} {blanks rest : List Char}

/-- Values that lose nothing when they are written and read: numbers without a sign that fit 64 bits, objects
with their fields in order, and at most `levels` arrays and objects around each other. -/
def Exact : (levels : Nat) → Json → Prop
  | _, .null => True
  | _, .bool _ => True
  | _, .int n => 0 ≤ n ∧ n ≤ wordLimit
  | _, .real _ _ => False
  | _, .str _ => True
  | 0, .arr _ => False
  | 0, .obj _ => False
  | levels + 1, .arr items => ∀ item ∈ items, Exact levels item
  | levels + 1, .obj fields =>
    (fields.map Prod.fst).Pairwise (· < ·) ∧ ∀ field ∈ fields, Exact levels field.2

@[simp] theorem exact_null (levels : Nat) : null.Exact levels := by
  cases levels <;> trivial

@[simp] theorem exact_bool (levels : Nat) (b : Bool) : (bool b).Exact levels := by
  cases levels <;> trivial

@[simp] theorem exact_str (levels : Nat) (s : String) : (str s).Exact levels := by
  cases levels <;> trivial

theorem exact_int {n : Nat} (h : n ≤ wordLimit) (levels : Nat) : (int n).Exact levels := by
  rw [Exact]
  omega

theorem exact_obj (keys : List String) (hkeys : fields.map Prod.fst = keys) (hsorted : keys.Pairwise (· < ·))
    (h : ∀ field ∈ fields, field.2.Exact levels) : (obj fields).Exact (levels + 1) :=
  ⟨hkeys ▸ hsorted, h⟩

/-! ### Blanks -/

def Blank (cs : List Char) : Prop :=
  ∀ c ∈ cs, isBlank c = true

theorem skipBlank_cons (h : isBlank c = false) (rest : List Char) : skipBlank (c :: rest) = c :: rest := by
  simp [skipBlank, h]

theorem skipBlank_append (h : Blank blanks) (rest : List Char) :
    skipBlank (blanks ++ rest) = skipBlank rest :=
  List.dropWhile_append_of_pos h

theorem skipBlank_behind (h : Blank blanks) (hc : isBlank c = false) (rest : List Char) :
    skipBlank (blanks ++ c :: rest) = c :: rest := by
  rw [skipBlank_append h, skipBlank_cons hc]

theorem readValue_append (h : Blank blanks) (levels : Nat) (rest : List Char) :
    readValue levels (blanks ++ rest) = readValue levels rest := by
  cases levels <;> rw [readValue, readValue, skipBlank_append h]

/-- A line break with the margin of the next line. -/
def lineBreak (level : Nat) : List Char :=
  '\n' :: List.replicate (2 * level) ' '

theorem blank_lineBreak (level : Nat) : Blank (lineBreak level) := by
  intro c hc
  rcases List.mem_cons.mp hc with rfl | hc
  · rfl
  · rw [(List.mem_replicate.mp hc).2]
    rfl

theorem delimited_lineBreak (level : Nat) (rest : List Char) : Delimited (lineBreak level ++ rest) := by
  rintro c ⟨⟩
  decide

theorem delimited_comma (rest : List Char) : Delimited (',' :: rest) := by
  rintro c ⟨⟩
  decide

/-! ### The text of a value -/

def quoted (s : String) : List Char :=
  '"' :: (s.toList.flatMap escapeChar ++ ['"'])

theorem toList_stringText (s : String) : (stringText s).toList = quoted s := by
  simp [stringText, quoted]

section

attribute [local simp] prettyAt prettyItems prettyFields

theorem toList_prettyAt_null (level : Nat) : (prettyAt level .null).toList = ['n', 'u', 'l', 'l'] := by
  simp

theorem toList_prettyAt_bool (level : Nat) (b : Bool) : (prettyAt level (.bool b)).toList =
    if b then ['t', 'r', 'u', 'e'] else ['f', 'a', 'l', 's', 'e'] := by
  cases b <;> simp

theorem toList_prettyAt_int (level n : Nat) : (prettyAt level (.int n)).toList = Nat.toDigits 10 n := by
  have htext : toString (n : Int) = String.ofList (Nat.toDigits 10 n) := Nat.toString_eq_ofList_toDigits
  rw [prettyAt, htext, String.toList_ofList]

theorem toList_prettyAt_str (level : Nat) (s : String) : (prettyAt level (.str s)).toList = quoted s := by
  rw [prettyAt, toList_stringText]

theorem toList_prettyAt_arr_nil (level : Nat) : (prettyAt level (.arr [])).toList = ['[', ']'] := by
  simp

theorem toList_prettyAt_arr (level : Nat) (x : Json) (items : List Json) :
    (prettyAt level (.arr (x :: items))).toList =
      '[' :: (lineBreak (level + 1) ++ ((prettyAt (level + 1) x).toList ++
        ((prettyItems (level + 1) items).toList ++ (lineBreak level ++ [']'])))) := by
  simp [lineBreak, margin]

theorem toList_prettyItems_cons (level : Nat) (x : Json) (items : List Json) :
    (prettyItems level (x :: items)).toList =
      ',' :: (lineBreak level ++ ((prettyAt level x).toList ++ (prettyItems level items).toList)) := by
  simp [lineBreak, margin]

theorem toList_prettyAt_obj_nil (level : Nat) : (prettyAt level (.obj [])).toList = ['\x7b', '\x7d'] := by
  simp

theorem toList_prettyAt_obj (level : Nat) (key : String) (v : Json) (fields : List (String × Json)) :
    (prettyAt level (.obj ((key, v) :: fields))).toList =
      '\x7b' :: (lineBreak (level + 1) ++ (quoted key ++ ':' :: ' ' :: ((prettyAt (level + 1) v).toList ++
        ((prettyFields (level + 1) fields).toList ++ (lineBreak level ++ ['\x7d']))))) := by
  simp [lineBreak, margin, toList_stringText]

theorem toList_prettyFields_cons (level : Nat) (key : String) (v : Json) (fields : List (String × Json)) :
    (prettyFields level ((key, v) :: fields)).toList =
      ',' :: (lineBreak level ++ (quoted key ++ ':' :: ' ' :: ((prettyAt level v).toList ++
        (prettyFields level fields).toList))) := by
  simp [lineBreak, margin, toList_stringText]

end

/-- Each item after the first has a comma in front, so there are no more items than characters. -/
theorem length_le_prettyItems (level : Nat) (items : List Json) :
    items.length ≤ (prettyItems level items).toList.length := by
  induction items with
  | nil => exact Nat.zero_le _
  | cons x items ih =>
    simp only [toList_prettyItems_cons, List.length_cons, List.length_append]
    omega

theorem length_le_prettyFields (level : Nat) (fields : List (String × Json)) :
    fields.length ≤ (prettyFields level fields).toList.length := by
  induction fields with
  | nil => exact Nat.zero_le _
  | cons field fields ih =>
    obtain ⟨key, v⟩ := field
    simp only [toList_prettyFields_cons, List.length_cons, List.length_append]
    omega

/-- A digit is no blank, and it does not start or end an array or an object. -/
theorem plain_of_isDigit (h : c.isDigit = true) :
    isBlank c = false ∧ c ≠ ']' ∧ c ≠ '[' ∧ c ≠ '\x7b' := by
  refine ⟨Bool.eq_false_iff.mpr fun hblank => ?_, ?_, ?_, ?_⟩
  · simp only [isBlank, Bool.or_eq_true, decide_eq_true_eq] at hblank
    rcases hblank with ((rfl | rfl) | rfl) | rfl <;> exact absurd h (by decide)
  all_goals
    rintro rfl
    exact absurd h (by decide)

/-- The text of a value starts with no blank, and it is not taken for the end of an array. -/
theorem exists_prettyAt_eq_cons (h : v.Exact levels) (level : Nat) : ∃ c cs,
    (v.prettyAt level).toList = c :: cs ∧ isBlank c = false ∧ c ≠ ']' := by
  cases v with
  | null => exact ⟨_, _, toList_prettyAt_null level, by decide⟩
  | bool b =>
    rw [toList_prettyAt_bool]
    cases b <;> exact ⟨_, _, rfl, by decide⟩
  | int n =>
    rw [Exact] at h
    obtain ⟨n, rfl⟩ := Int.eq_ofNat_of_zero_le h.1
    obtain ⟨d, ds, hds, hd⟩ := exists_toDigits_eq_cons n
    obtain ⟨hblank, hbracket, -⟩ := plain_of_isDigit hd
    exact ⟨d, ds, by rw [toList_prettyAt_int, hds], hblank, hbracket⟩
  | real =>
    rw [Exact] at h
    exact h.elim
  | str s => exact ⟨_, _, toList_prettyAt_str level s, by decide⟩
  | arr items =>
    cases items with
    | nil => exact ⟨_, _, toList_prettyAt_arr_nil level, by decide⟩
    | cons x items => exact ⟨_, _, toList_prettyAt_arr .., by decide⟩
  | obj fields =>
    cases fields with
    | nil => exact ⟨_, _, toList_prettyAt_obj_nil level, by decide⟩
    | cons field fields => exact ⟨_, _, toList_prettyAt_obj .., by decide⟩

/-! ### Items and fields -/

/-- The reader takes a value from its text at this level, also behind blanks. -/
def Takes (read : List Char → Option (Json × List Char)) (level : Nat) (v : Json) : Prop :=
  ∀ blanks rest, Blank blanks → Delimited rest →
    read (blanks ++ ((v.prettyAt level).toList ++ rest)) = some (v, rest)

theorem readItems_pretty {steps : Nat} (h : ∀ item ∈ x :: items, Takes read level item)
    (hsteps : items.length < steps) (outer : Nat) :
    readItems read steps (lineBreak level ++ ((x.prettyAt level).toList ++
      ((prettyItems level items).toList ++ (lineBreak outer ++ ']' :: rest)))) = some (x :: items, rest) := by
  induction items generalizing x steps with
  | nil =>
    obtain ⟨steps, rfl⟩ := Nat.exists_eq_add_one_of_ne_zero (Nat.ne_zero_of_lt hsteps)
    have hx := h x (by simp) _ _ (blank_lineBreak level) (delimited_lineBreak outer (']' :: rest))
    have hend := skipBlank_behind (blank_lineBreak outer) (c := ']') (by decide) rest
    simp [readItems, prettyItems, hx, hend]
  | cons y items ih =>
    obtain ⟨steps, rfl⟩ := Nat.exists_eq_add_one_of_ne_zero (Nat.ne_zero_of_lt hsteps)
    have hrest := ih (x := y) (fun item hi => h item (List.mem_cons_of_mem _ hi))
      (Nat.lt_of_succ_lt_succ hsteps)
    have hx := h x (by simp) _ _ (blank_lineBreak level) (delimited_comma (lineBreak level ++
      ((y.prettyAt level).toList ++ ((prettyItems level items).toList ++ (lineBreak outer ++ ']' :: rest)))))
    simp [readItems, toList_prettyItems_cons, hx, skipBlank_cons, isBlank, hrest]

theorem readKey_quoted (h : Blank blanks) (key : String) (rest : List Char) :
    readKey (blanks ++ (quoted key ++ ':' :: rest)) = some (key, rest) := by
  have hquote := skipBlank_behind h (c := '"') (by decide)
    (key.toList.flatMap escapeChar ++ '"' :: ':' :: rest)
  have hcolon := skipBlank_cons (c := ':') (by decide) rest
  simp [readKey, quoted, hquote, readText_append, hcolon]

theorem readFields_pretty {steps : Nat} (key : String) (hv : Takes read level v)
    (h : ∀ field ∈ fields, Takes read level field.2) (hsteps : fields.length < steps) (outer : Nat) :
    readFields read steps (lineBreak level ++ (quoted key ++ ':' :: ' ' :: ((v.prettyAt level).toList ++
      ((prettyFields level fields).toList ++ (lineBreak outer ++ '\x7d' :: rest))))) =
      some ((key, v) :: fields, rest) := by
  have hblank : Blank [' '] := by
    intro c hc
    rw [List.mem_singleton.mp hc]
    rfl
  induction fields generalizing key v steps with
  | nil =>
    obtain ⟨steps, rfl⟩ := Nat.exists_eq_add_one_of_ne_zero (Nat.ne_zero_of_lt hsteps)
    have hx := hv _ _ hblank (delimited_lineBreak outer ('\x7d' :: rest))
    have hend := skipBlank_behind (blank_lineBreak outer) (c := '\x7d') (by decide) rest
    rw [List.singleton_append] at hx
    simp [readFields, readKey_quoted (blank_lineBreak level), prettyFields, hx, hend]
  | cons field fields ih =>
    obtain ⟨key', v'⟩ := field
    obtain ⟨steps, rfl⟩ := Nat.exists_eq_add_one_of_ne_zero (Nat.ne_zero_of_lt hsteps)
    have hrest := ih key' (h (key', v') (by simp))
      (fun field hf => h field (List.mem_cons_of_mem _ hf)) (Nat.lt_of_succ_lt_succ hsteps)
    have hx := hv _ _ hblank (delimited_comma (lineBreak level ++ (quoted key' ++ ':' :: ' ' ::
      ((v'.prettyAt level).toList ++ ((prettyFields level fields).toList ++ (lineBreak outer ++ '\x7d' :: rest))))))
    rw [List.singleton_append] at hx
    simp [readFields, readKey_quoted (blank_lineBreak level), toList_prettyFields_cons, hx, skipBlank_cons, isBlank,
      hrest]

theorem setField_of_lt {value : Json} (h : ∀ field ∈ fields, field.1 < key) :
    setField key value fields = fields ++ [(key, value)] := by
  induction fields with
  | nil => rfl
  | cons field fields ih =>
    obtain ⟨k, v⟩ := field
    have hlt : k < key := h (k, v) (by simp)
    have hne : key ≠ k := fun he => String.lt_irrefl k (he ▸ hlt)
    have hrest := ih fun field hf => h field (List.mem_cons_of_mem _ hf)
    rw [setField, if_neg (String.lt_asymm hlt), if_neg hne, hrest, List.cons_append]

theorem foldl_setField (front : List (String × Json)) (h : ((front ++ fields).map Prod.fst).Pairwise (· < ·)) :
    fields.foldl (fun sorted (key, value) => setField key value sorted) front = front ++ fields := by
  induction fields generalizing front with
  | nil => simp
  | cons field fields ih =>
    obtain ⟨key, value⟩ := field
    have hlt : ∀ other ∈ front, other.1 < key := by
      intro other ho
      rw [List.map_append, List.pairwise_append] at h
      exact h.2.2 other.1 (List.mem_map_of_mem ho) key (by simp)
    simp only [List.foldl_cons, setField_of_lt hlt]
    rw [ih _ (by simpa using h)]
    simp

/-- Fields that are in order already make up the object as they are. -/
theorem ofFields_of_pairwise (h : (fields.map Prod.fst).Pairwise (· < ·)) : ofFields fields = .obj fields := by
  have hfields := foldl_setField [] h
  rw [ofFields, hfields, List.nil_append]

theorem readArray_pretty (hx : x.Exact levels) (h : ∀ item ∈ x :: items, Takes read level item) (outer : Nat)
    (rest : List Char) :
    readArray read (lineBreak level ++ ((x.prettyAt level).toList ++
      ((prettyItems level items).toList ++ (lineBreak outer ++ ']' :: rest)))) =
      some (.arr (x :: items), rest) := by
  obtain ⟨c, cs, htext, hblank, hbracket⟩ := exists_prettyAt_eq_cons hx level
  have hsteps := length_le_prettyItems level items
  rw [readArray]
  split
  · rename_i heq
    rw [htext, List.cons_append, skipBlank_behind (blank_lineBreak level) hblank] at heq
    exact absurd (List.cons.inj heq).1 hbracket
  · rw [readItems_pretty h]
    · rfl
    · simp only [List.length_append, lineBreak, List.length_cons]
      omega

theorem readObject_pretty (hv : Takes read level v) (h : ∀ field ∈ fields, Takes read level field.2)
    (hsorted : (((key, v) :: fields).map Prod.fst).Pairwise (· < ·)) (outer : Nat) (rest : List Char) :
    readObject read (lineBreak level ++ (quoted key ++ ':' :: ' ' :: ((v.prettyAt level).toList ++
      ((prettyFields level fields).toList ++ (lineBreak outer ++ '\x7d' :: rest))))) =
      some (.obj ((key, v) :: fields), rest) := by
  have hsteps := length_le_prettyFields level fields
  rw [readObject]
  split
  · rename_i heq
    rw [quoted, List.cons_append, skipBlank_behind (blank_lineBreak level) (by decide)] at heq
    exact absurd (List.cons.inj heq).1 (by decide)
  · rw [readFields_pretty key hv h]
    · rw [← ofFields_of_pairwise hsorted]
      rfl
    · simp only [List.length_append, lineBreak, List.length_cons]
      omega

/-! ### Values -/

theorem readValue_of_cons (hblank : isBlank c = false) (harray : c ≠ '[') (hobject : c ≠ '\x7b')
    (levels : Nat) (cs : List Char) : readValue levels (c :: cs) = readScalar (c :: cs) := by
  cases levels with
  | zero => rw [readValue, skipBlank_cons hblank]
  | succ levels =>
    rw [readValue, skipBlank_cons hblank]
    split
    · rename_i heq
      exact absurd (List.cons.inj heq).1 harray
    · rename_i heq
      exact absurd (List.cons.inj heq).1 hobject
    · rfl

theorem readScalar_quoted (s : String) (rest : List Char) :
    readScalar (quoted s ++ rest) = some (.str s, rest) := by
  have htext : quoted s ++ rest = '"' :: (s.toList.flatMap escapeChar ++ '"' :: rest) := by simp [quoted]
  rw [htext, readScalar, readText_append]
  simp

/-- A value that is no array and no object is read at any level. -/
theorem readValue_scalar (h : v.Exact 0) (levels level : Nat) (hrest : Delimited rest) :
    readValue levels ((v.prettyAt level).toList ++ rest) = some (v, rest) := by
  cases v with
  | null =>
    rw [toList_prettyAt_null]
    exact readValue_of_cons (by decide) (by decide) (by decide) ..
  | bool b =>
    rw [toList_prettyAt_bool]
    cases b <;> exact readValue_of_cons (by decide) (by decide) (by decide) ..
  | int n =>
    obtain ⟨n, rfl⟩ := Int.eq_ofNat_of_zero_le h.1
    have hfits : n ≤ wordLimit := Int.ofNat_le.mp h.2
    obtain ⟨d, ds, hds, hd⟩ := exists_toDigits_eq_cons n
    obtain ⟨hblank, -, harray, hobject⟩ := plain_of_isDigit hd
    rw [toList_prettyAt_int, ← readScalar_toDigits hfits hrest, hds]
    exact readValue_of_cons hblank harray hobject ..
  | str s =>
    rw [toList_prettyAt_str, ← readScalar_quoted]
    exact readValue_of_cons (by decide) (by decide) (by decide) ..
  | real => exact h.elim
  | arr => exact h.elim
  | obj => exact h.elim

/-- A value is read back from its text, whatever follows it that a numeral could not go on with. -/
theorem readValue_prettyAt (h : v.Exact levels) (level : Nat) (hrest : Delimited rest) :
    readValue levels ((v.prettyAt level).toList ++ rest) = some (v, rest) := by
  induction levels generalizing v level rest with
  | zero => exact readValue_scalar h 0 level hrest
  | succ levels ih =>
    have htakes : ∀ {v : Json}, v.Exact levels → Takes (readValue levels) (level + 1) v := by
      intro v hv blanks rest hblanks hrest
      rw [readValue_append hblanks, ih hv _ hrest]
    cases v with
    | arr items =>
      cases items with
      | nil =>
        rw [toList_prettyAt_arr_nil]
        rfl
      | cons x items =>
        have harray := readArray_pretty (h x (by simp)) (fun item hi => htakes (h item hi)) level rest
        rw [toList_prettyAt_arr, ← harray]
        simp [readValue, skipBlank_cons, isBlank]
    | obj fields =>
      cases fields with
      | nil =>
        rw [toList_prettyAt_obj_nil]
        rfl
      | cons field fields =>
        obtain ⟨key, v⟩ := field
        have hobject := readObject_pretty (htakes (h.2 (key, v) (by simp)))
          (fun field hf => htakes (h.2 field (List.mem_cons_of_mem _ hf))) h.1 level rest
        rw [toList_prettyAt_obj, ← hobject]
        simp [readValue, skipBlank_cons, isBlank]
    | null | bool | int | real | str => exact readValue_scalar (by exact h) _ level hrest

/-- A whole text holds the value that was written, also with a line break behind it. -/
theorem parse?_pretty (h : v.Exact nestingLimit) : parse? (v.pretty ++ "\n") = some v := by
  have hread := readValue_prettyAt h 0 (delimited_lineBreak 0 [])
  have htext : (v.pretty ++ "\n").toList = (v.prettyAt 0).toList ++ (lineBreak 0 ++ []) := by
    simp [pretty, lineBreak]
  rw [parse?, htext, hread]
  rfl

end Foldergram.Json
