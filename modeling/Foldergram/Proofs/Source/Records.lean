import Foldergram.Proofs.Checked
import Foldergram.Source.Document
import Mathlib.Data.List.Basic

/-!
The records of a graph document. What a record has to look like is said here of the record as a whole, without
the order in which its fields are visited. Reading an object fills each field from the values under its own
keys, whatever stands under the keys of the others, and so the fields can be looked at one by one.
-/

namespace Foldergram

namespace Json

variable {v : Json}

/-- The value is a text. -/
def IsText (v : Json) (s : String) : Prop :=
  v = .str s

/-- The value is a whole number of 32 bits. -/
def IsCount (v : Json) (n : Nat) : Prop :=
  v = .int n ∧ n ≤ 4294967295

/-- What stands under any of the given keys. -/
def under (keys : List String) (fields : List (String × Json)) : List Json :=
  (fields.filter fun field => field.1 ∈ keys).map Prod.snd

theorem text_eq_ok {s : String} : v.text = .ok s ↔ v.IsText s := by
  cases v <;> simp [text, IsText]

theorem count_eq_ok {n : Nat} : v.count = .ok n ↔ v.IsCount n := by
  cases v with
  | int i =>
    rw [count, IsCount, Json.int.injEq]
    by_cases h : 0 ≤ i ∧ i ≤ countLimit
    · rw [if_pos h, Except.ok.injEq]
      rw [countLimit] at h
      omega
    · rw [if_neg h]
      rw [countLimit] at h
      simp only [reduceCtorEq, false_iff]
      omega
  | _ => simp [count, IsCount]

/-- Reading that starts with a text. -/
theorem bind_text_eq_ok {α : Type} {f : String → RecordResult α} {x : α} :
    v.text >>= f = .ok x ↔ ∃ s, v = .str s ∧ f s = .ok x := by
  simp only [bind_eq_ok, text_eq_ok, IsText]

theorem under_cons (keys : List String) (key : String) (value : Json) (fields : List (String × Json)) :
    under keys ((key, value) :: fields) = (if key ∈ keys then [value] else []) ++ under keys fields := by
  rw [under, List.filter_cons]
  split <;> simp_all [under]

end Json

section Fields

variable {α : Type} {read : Json → RecordResult α} {reads : Json → α → Prop} {name : String}
  {keys : List String} {fields : List (String × Json)} {values : List Json} {x : α}

/-- Exactly one of the keys occurs, and its value gives `x`. -/
def Holds (reads : Json → α → Prop) (keys : List String) (fields : List (String × Json)) (x : α) : Prop :=
  ∃ value, Json.under keys fields = [value] ∧ reads value x

/-- At most one of the keys occurs; the value gives `x`, which without a value is the given one. -/
def HoldsOr (without : α) (reads : Json → α → Prop) (keys : List String) (fields : List (String × Json))
    (x : α) : Prop :=
  Json.under keys fields = [] ∧ x = without ∨ Holds reads keys fields x

/-- Fills a field from the values in turn, of which only the first can succeed. -/
def fillFrom (name : String) (read : Json → RecordResult α) (old : Option α) (values : List Json) :
    RecordResult (Option α) :=
  values.foldlM (fun old value => fillOnce name old (read value)) old

theorem fillFrom_nil_eq_ok {old new : Option α} : fillFrom name read old [] = .ok new ↔ old = new :=
  pure_eq_ok

theorem fillFrom_singleton (old : Option α) (value : Json) :
    fillFrom name read old [value] = fillOnce name old (read value) := by
  rw [fillFrom, List.foldlM_cons]
  cases fillOnce name old (read value) <;> rfl

theorem fillFrom_append_eq_ok {old new : Option α} {values values' : List Json} :
    fillFrom name read old (values ++ values') = .ok new ↔
      ∃ mid, fillFrom name read old values = .ok mid ∧ fillFrom name read mid values' = .ok new := by
  rw [fillFrom, List.foldlM_append, bind_eq_ok]
  rfl

/-- A field that is filled takes no other value. -/
theorem fillFrom_some_eq_ok {new : Option α} :
    fillFrom name read (some x) values = .ok new ↔ values = [] ∧ some x = new := by
  cases values with
  | nil => simp [fillFrom_nil_eq_ok]
  | cons value values =>
    rw [fillFrom, List.foldlM_cons, fillOnce, bind_eq_ok]
    simp

theorem fillFrom_none_eq_ok {new : Option α} : fillFrom name read none values = .ok new ↔
    (values = [] ∧ new = none) ∨ ∃ value x, values = [value] ∧ read value = .ok x ∧ new = some x := by
  cases values with
  | nil =>
    rw [fillFrom_nil_eq_ok]
    simp [eq_comm]
  | cons value values =>
    rw [← List.singleton_append, fillFrom_append_eq_ok, fillFrom_singleton, fillOnce]
    constructor
    · rintro ⟨mid, hmid, hrest⟩
      obtain ⟨x, hx, rfl⟩ := map_eq_ok.mp hmid
      obtain ⟨rfl, rfl⟩ := fillFrom_some_eq_ok.mp hrest
      exact Or.inr ⟨value, x, rfl, hx, rfl⟩
    · rintro (⟨hnil, -⟩ | ⟨value', x, hone, hx, rfl⟩)
      · cases hnil
      · obtain ⟨rfl, rfl⟩ := List.cons.inj hone
        exact ⟨some x, map_eq_ok.mpr ⟨x, hx, rfl⟩, fillFrom_some_eq_ok.mpr ⟨rfl, rfl⟩⟩

/-- A field that has to be there. -/
theorem fillFrom_eq_ok_some (name : String) (hread : ∀ {v x}, read v = .ok x ↔ reads v x) :
    fillFrom name read none (Json.under keys fields) = .ok (some x) ↔ Holds reads keys fields x := by
  rw [fillFrom_none_eq_ok, Holds]
  constructor
  · rintro (⟨-, hnone⟩ | ⟨value, y, hone, hy, hsome⟩)
    · cases hnone
    · cases hsome
      exact ⟨value, hone, hread.mp hy⟩
  · rintro ⟨value, hone, hx⟩
    exact Or.inr ⟨value, x, hone, hread.mpr hx, rfl⟩

/-- A field that may be missing. -/
theorem exists_fillFrom_eq_ok (hread : ∀ {v x}, read v = .ok x ↔ reads v x) {without : α} :
    (∃ new, fillFrom name read none (Json.under keys fields) = .ok new ∧ new.getD without = x) ↔
      HoldsOr without reads keys fields x := by
  rw [HoldsOr, ← fillFrom_eq_ok_some name hread]
  constructor
  · rintro ⟨none | y, hnew, rfl⟩
    · rcases fillFrom_none_eq_ok.mp hnew with ⟨hnil, -⟩ | ⟨_, _, -, -, hsome⟩
      · exact Or.inl ⟨hnil, rfl⟩
      · cases hsome
    · exact Or.inr hnew
  · rintro (⟨hnil, rfl⟩ | hsome)
    · exact ⟨none, fillFrom_none_eq_ok.mpr (Or.inl ⟨hnil, rfl⟩), rfl⟩
    · exact ⟨some x, hsome, rfl⟩

end Fields

namespace SourceFile

/-- The spellings of a field. -/
def Field.keys : Field → List String
  | .id => ["ID", "id"]
  | .label => ["Label", "label"]
  | .dependencyCount => ["DependencyCount", "dependencyCount", "dependency_count"]

theorem Field.ofKey?_eq_some {key : String} {field : Field} :
    ofKey? key = some field ↔ key ∈ field.keys := by
  unfold ofKey?
  split
  · rename_i h
    rcases h with rfl | rfl <;> cases field <;> simp [keys]
  · split
    · rename_i h
      rcases h with rfl | rfl <;> cases field <;> simp [keys]
    · split
      · rename_i h
        rcases h with rfl | rfl | rfl <;> cases field <;> simp [keys]
      · cases field <;> simp_all [keys]

/-- The node records: an object with a text under one of the keys for ids, and at most one label and one count,
or an array with up to three of these in order. -/
inductive Written : Json → SourceFile → Prop
  | object {fields : List (String × Json)} {id label : String} {count : Nat} :
    Holds Json.IsText Field.id.keys fields id → HoldsOr "" Json.IsText Field.label.keys fields label →
    HoldsOr 0 Json.IsCount Field.dependencyCount.keys fields count → Written (.obj fields) ⟨id, label, count⟩
  | id (id : String) : Written (.arr [.str id]) ⟨id, "", 0⟩
  | labelled (id label : String) : Written (.arr [.str id, .str label]) ⟨id, label, 0⟩
  | counted (id label : String) {count : Nat} : count ≤ 4294967295 →
    Written (.arr [.str id, .str label, .int count]) ⟨id, label, count⟩

/-- A visited field fills the field that its key names, if any. -/
theorem Draft.visit_eq_ok {draft draft' : Draft} {key : String} {value : Json} :
    draft.visit key value = .ok draft' ↔
      fillFrom "ID" Json.text draft.id (if key ∈ Field.id.keys then [value] else []) = .ok draft'.id ∧
      fillFrom "Label" Json.text draft.label (if key ∈ Field.label.keys then [value] else []) =
        .ok draft'.label ∧
      fillFrom "DependencyCount" Json.count draft.dependencyCount
        (if key ∈ Field.dependencyCount.keys then [value] else []) = .ok draft'.dependencyCount := by
  have hmem : ∀ field : Field, key ∈ field.keys ↔ Field.ofKey? key = some field :=
    fun _ => Field.ofKey?_eq_some.symm
  rw [visit]
  generalize Field.ofKey? key = found at hmem ⊢
  obtain ⟨id, label, count⟩ := draft
  obtain ⟨id', label', count'⟩ := draft'
  cases found with
  | none => simp [hmem, fillFrom_nil_eq_ok]
  | some field =>
    cases field <;> simp [hmem, fillFrom_nil_eq_ok, fillFrom_singleton, functor_map_eq_ok] <;> tauto

/-- A record as an object fills its fields independently of each other. -/
theorem Draft.visitAll_eq_ok {draft draft' : Draft} {fields : List (String × Json)} :
    fields.foldlM (fun draft (key, value) => draft.visit key value) draft = .ok draft' ↔
      fillFrom "ID" Json.text draft.id (Json.under Field.id.keys fields) = .ok draft'.id ∧
      fillFrom "Label" Json.text draft.label (Json.under Field.label.keys fields) = .ok draft'.label ∧
      fillFrom "DependencyCount" Json.count draft.dependencyCount
        (Json.under Field.dependencyCount.keys fields) = .ok draft'.dependencyCount := by
  induction fields generalizing draft with
  | nil =>
    obtain ⟨id, label, count⟩ := draft
    obtain ⟨id', label', count'⟩ := draft'
    simp [Json.under, fillFrom_nil_eq_ok]
  | cons field fields ih =>
    obtain ⟨key, value⟩ := field
    simp only [List.foldlM_cons, bind_eq_ok, Draft.visit_eq_ok, ih, Json.under_cons, fillFrom_append_eq_ok]
    constructor
    · rintro ⟨mid, ⟨hid, hlabel, hcount⟩, hid', hlabel', hcount'⟩
      exact ⟨⟨_, hid, hid'⟩, ⟨_, hlabel, hlabel'⟩, ⟨_, hcount, hcount'⟩⟩
    · rintro ⟨⟨id, hid, hid'⟩, ⟨label, hlabel, hlabel'⟩, ⟨count, hcount, hcount'⟩⟩
      exact ⟨⟨id, label, count⟩, ⟨hid, hlabel, hcount⟩, hid', hlabel', hcount'⟩

theorem Draft.finish_eq_ok {draft : Draft} {file : SourceFile} : draft.finish = .ok file ↔
    draft.id = some file.id ∧ draft.label.getD "" = file.label ∧
      draft.dependencyCount.getD 0 = file.dependencyCount := by
  obtain ⟨id, label, count⟩ := draft
  obtain ⟨id', label', count'⟩ := file
  cases id <;> simp [finish]

theorem ofItems_eq_ok {items : List Json} {file : SourceFile} :
    ofItems items = .ok file ↔ Written (.arr items) file := by
  constructor
  · intro h
    match items with
    | [] => cases h
    | [id] =>
      obtain ⟨id, rfl, h₁⟩ := Json.bind_text_eq_ok.mp h
      cases h₁
      exact .id id
    | [id, label] =>
      obtain ⟨id, rfl, h₁⟩ := Json.bind_text_eq_ok.mp h
      obtain ⟨label, rfl, h₂⟩ := Json.bind_text_eq_ok.mp h₁
      cases h₂
      exact .labelled id label
    | [id, label, count] =>
      obtain ⟨id, rfl, h₁⟩ := Json.bind_text_eq_ok.mp h
      obtain ⟨label, rfl, h₂⟩ := Json.bind_text_eq_ok.mp h₁
      obtain ⟨count, hcount, h₃⟩ := bind_eq_ok.mp h₂
      obtain ⟨rfl, hle⟩ := Json.count_eq_ok.mp hcount
      cases h₃
      exact .counted id label hle
    | id :: label :: count :: next :: rest =>
      obtain ⟨id, rfl, h₁⟩ := Json.bind_text_eq_ok.mp h
      obtain ⟨label, rfl, h₂⟩ := Json.bind_text_eq_ok.mp h₁
      obtain ⟨count, -, h₃⟩ := bind_eq_ok.mp h₂
      cases h₃
  · intro h
    cases h with
    | id => rfl
    | labelled => rfl
    | counted id label hle =>
      have hcount := Json.count_eq_ok.mpr ⟨rfl, hle⟩
      refine Json.bind_text_eq_ok.mpr ⟨id, rfl, Json.bind_text_eq_ok.mpr ⟨label, rfl, ?_⟩⟩
      exact bind_eq_ok.mpr ⟨_, hcount, rfl⟩

/-- Reading a node record gives what is written. -/
theorem ofJson_eq_ok {v : Json} {file : SourceFile} : ofJson v = .ok file ↔ Written v file := by
  cases v with
  | obj fields =>
    rw [ofJson, bind_eq_ok]
    simp only [Draft.visitAll_eq_ok, Draft.finish_eq_ok]
    constructor
    · rintro ⟨⟨id, label, count⟩, ⟨hid, hlabel, hcount⟩, rfl, hlabel', hcount'⟩
      exact .object ((fillFrom_eq_ok_some _ Json.text_eq_ok).mp hid)
        ((exists_fillFrom_eq_ok Json.text_eq_ok).mp ⟨label, hlabel, hlabel'⟩)
        ((exists_fillFrom_eq_ok Json.count_eq_ok).mp ⟨count, hcount, hcount'⟩)
    · intro h
      cases h with
      | object hid hlabel hcount =>
        obtain ⟨label, hlabel, hlabel'⟩ := (exists_fillFrom_eq_ok Json.text_eq_ok).mpr hlabel
        obtain ⟨count, hcount, hcount'⟩ := (exists_fillFrom_eq_ok Json.count_eq_ok).mpr hcount
        exact ⟨⟨some _, label, count⟩, ⟨(fillFrom_eq_ok_some _ Json.text_eq_ok).mpr hid, hlabel, hcount⟩,
          rfl, hlabel', hcount'⟩
  | arr items => exact ofItems_eq_ok
  | _ => refine iff_of_false ?_ ?_ <;> rintro ⟨⟩

end SourceFile

namespace Dependency

/-- The spellings of a field. -/
def Field.keys : Field → List String
  | .source => ["Source", "source"]
  | .target => ["Target", "target"]

theorem Field.ofKey?_eq_some {key : String} {field : Field} :
    ofKey? key = some field ↔ key ∈ field.keys := by
  unfold ofKey?
  split
  · rename_i h
    rcases h with rfl | rfl <;> cases field <;> simp [keys]
  · split
    · rename_i h
      rcases h with rfl | rfl <;> cases field <;> simp [keys]
    · cases field <;> simp_all [keys]

/-- The edge records: an object with a text under one of the keys for either end, or an array of the two ends. -/
inductive Written : Json → Dependency → Prop
  | object {fields : List (String × Json)} {source target : String} :
    Holds Json.IsText Field.source.keys fields source → Holds Json.IsText Field.target.keys fields target →
    Written (.obj fields) ⟨source, target⟩
  | ends (source target : String) : Written (.arr [.str source, .str target]) ⟨source, target⟩

/-- A visited field fills the field that its key names, if any. -/
theorem Draft.visit_eq_ok {draft draft' : Draft} {key : String} {value : Json} :
    draft.visit key value = .ok draft' ↔
      fillFrom "Source" Json.text draft.source (if key ∈ Field.source.keys then [value] else []) =
        .ok draft'.source ∧
      fillFrom "Target" Json.text draft.target (if key ∈ Field.target.keys then [value] else []) =
        .ok draft'.target := by
  have hmem : ∀ field : Field, key ∈ field.keys ↔ Field.ofKey? key = some field :=
    fun _ => Field.ofKey?_eq_some.symm
  rw [visit]
  generalize Field.ofKey? key = found at hmem ⊢
  obtain ⟨source, target⟩ := draft
  obtain ⟨source', target'⟩ := draft'
  cases found with
  | none => simp [hmem, fillFrom_nil_eq_ok]
  | some field =>
    cases field <;> simp [hmem, fillFrom_nil_eq_ok, fillFrom_singleton, functor_map_eq_ok, and_comm]

/-- A record as an object fills its fields independently of each other. -/
theorem Draft.visitAll_eq_ok {draft draft' : Draft} {fields : List (String × Json)} :
    fields.foldlM (fun draft (key, value) => draft.visit key value) draft = .ok draft' ↔
      fillFrom "Source" Json.text draft.source (Json.under Field.source.keys fields) = .ok draft'.source ∧
      fillFrom "Target" Json.text draft.target (Json.under Field.target.keys fields) = .ok draft'.target := by
  induction fields generalizing draft with
  | nil =>
    obtain ⟨source, target⟩ := draft
    obtain ⟨source', target'⟩ := draft'
    simp [Json.under, fillFrom_nil_eq_ok]
  | cons field fields ih =>
    obtain ⟨key, value⟩ := field
    simp only [List.foldlM_cons, bind_eq_ok, Draft.visit_eq_ok, ih, Json.under_cons, fillFrom_append_eq_ok]
    constructor
    · rintro ⟨mid, ⟨hsource, htarget⟩, hsource', htarget'⟩
      exact ⟨⟨_, hsource, hsource'⟩, ⟨_, htarget, htarget'⟩⟩
    · rintro ⟨⟨source, hsource, hsource'⟩, ⟨target, htarget, htarget'⟩⟩
      exact ⟨⟨source, target⟩, ⟨hsource, htarget⟩, hsource', htarget'⟩

theorem Draft.finish_eq_ok {draft : Draft} {d : Dependency} :
    draft.finish = .ok d ↔ draft.source = some d.source ∧ draft.target = some d.target := by
  obtain ⟨source, target⟩ := draft
  obtain ⟨source', target'⟩ := d
  cases source <;> cases target <;> simp [finish]

theorem ofItems_eq_ok {items : List Json} {d : Dependency} :
    ofItems items = .ok d ↔ Written (.arr items) d := by
  constructor
  · intro h
    match items with
    | [] => cases h
    | [source] =>
      obtain ⟨source, rfl, h₁⟩ := Json.bind_text_eq_ok.mp h
      cases h₁
    | [source, target] =>
      obtain ⟨source, rfl, h₁⟩ := Json.bind_text_eq_ok.mp h
      obtain ⟨target, rfl, h₂⟩ := Json.bind_text_eq_ok.mp h₁
      cases h₂
      exact .ends source target
    | source :: target :: next :: rest =>
      obtain ⟨source, rfl, h₁⟩ := Json.bind_text_eq_ok.mp h
      obtain ⟨target, rfl, h₂⟩ := Json.bind_text_eq_ok.mp h₁
      cases h₂
  · intro h
    cases h
    rfl

/-- Reading an edge record gives what is written. -/
theorem ofJson_eq_ok {v : Json} {d : Dependency} : ofJson v = .ok d ↔ Written v d := by
  cases v with
  | obj fields =>
    rw [ofJson, bind_eq_ok]
    simp only [Draft.visitAll_eq_ok, Draft.finish_eq_ok]
    constructor
    · rintro ⟨⟨source, target⟩, ⟨hsource, htarget⟩, rfl, rfl⟩
      exact .object ((fillFrom_eq_ok_some _ Json.text_eq_ok).mp hsource)
        ((fillFrom_eq_ok_some _ Json.text_eq_ok).mp htarget)
    · intro h
      cases h with
      | object hsource htarget =>
        exact ⟨⟨some _, some _⟩, ⟨(fillFrom_eq_ok_some _ Json.text_eq_ok).mpr hsource,
          (fillFrom_eq_ok_some _ Json.text_eq_ok).mpr htarget⟩, rfl, rfl⟩
  | arr items => exact ofItems_eq_ok
  | _ => refine iff_of_false ?_ ?_ <;> rintro ⟨⟩

end Dependency

end Foldergram
