import Foldergram.Proofs.Source.Records
import Mathlib.Data.List.Forall2

/-!
Which graph documents are read: those with both lists whose records can all be read. Where both lists are there,
a document is refused for the first node that cannot be read, or else for the first edge.
-/

namespace Foldergram

namespace SourceGraph

section Records

variable {α : Type} {kind : RecordKind} {read : Json → RecordResult α} {written : Json → α → Prop}
  {items : List Json} {index : Nat} {fault : InputFault}

/-- The first record that cannot be read stands at position `i`. -/
def FirstBad (written : Json → α → Prop) (items : List Json) (i : Nat) : Prop :=
  (∃ item, items[i]? = some item ∧ ¬ ∃ record, written item record) ∧
    ∀ j < i, ∀ item, items[j]? = some item → ∃ record, written item record

theorem readRecords_eq_ok (hread : ∀ {v x}, read v = .ok x ↔ written v x) {records : List α} :
    readRecords kind read index items = .ok records ↔ List.Forall₂ written items records := by
  induction items generalizing index records with
  | nil => simp [readRecords, eq_comm]
  | cons item items ih =>
    rw [readRecords, List.forall₂_cons_left_iff]
    simp only [← hread]
    cases hitem : read item with
    | error detail => simp
    | ok record =>
      simp only [bind_eq_ok, pure_eq_ok, ih]
      constructor
      · rintro ⟨rest, hrest, rfl⟩
        exact ⟨record, rest, rfl, hrest, rfl⟩
      · rintro ⟨record', rest, hrecord, hrest, rfl⟩
        cases hrecord
        exact ⟨rest, hrest, rfl⟩

/-- A failing reader stops at the first bad record, and says where that stands. -/
theorem readRecords_eq_error (hread : ∀ {v x}, read v = .ok x ↔ written v x)
    (h : readRecords kind read index items = .error fault) :
    ∃ i detail, fault = .badRecord kind (index + i) detail ∧ FirstBad written items i := by
  induction items generalizing index with
  | nil => cases h
  | cons item items ih =>
    rw [readRecords] at h
    cases hitem : read item with
    | error detail =>
      rw [hitem] at h
      cases h
      refine ⟨0, detail, rfl, ⟨item, rfl, ?_⟩, fun j hj => absurd hj (Nat.not_lt_zero j)⟩
      rintro ⟨record, hr⟩
      rw [← hread, hitem] at hr
      cases hr
    | ok record =>
      rw [hitem] at h
      rcases bind_eq_error.mp h with hrest | ⟨records, -, hpure⟩
      · obtain ⟨i, detail, rfl, hbad, hgood⟩ := ih hrest
        refine ⟨i + 1, detail, by rw [Nat.add_assoc, Nat.add_comm 1 i], hbad, ?_⟩
        intro j hj x hx
        cases j with
        | zero =>
          cases hx
          exact ⟨record, hread.mp hitem⟩
        | succ j => exact hgood j (Nat.lt_of_succ_lt_succ hj) x hx
      · cases hpure

/-- Records can be read if each of them can. -/
theorem exists_forall₂_iff : (∃ records, List.Forall₂ written items records) ↔
    ∀ item ∈ items, ∃ record, written item record := by
  induction items with
  | nil => simp
  | cons item items ih =>
    rw [List.forall_mem_cons, ← ih]
    constructor
    · rintro ⟨_, hrecords⟩
      cases hrecords with
      | cons hrecord hrest => exact ⟨⟨_, hrecord⟩, _, hrest⟩
    · rintro ⟨⟨record, hrecord⟩, rest, hrest⟩
      exact ⟨record :: rest, .cons hrecord hrest⟩

end Records

variable {v : Json} {fields : List (String × Json)} {nodes edges : List Json} {g : SourceGraph}

/-- The list under the capitalised key or, only where that is absent, under the small one. -/
def Listed (fields : List (String × Json)) (key smallKey : String) (items : List Json) : Prop :=
  fields.lookup key = some (.arr items) ∨
    fields.lookup key = none ∧ fields.lookup smallKey = some (.arr items)

/-- An object with the two lists of a graph document. -/
def Delivers (v : Json) (nodes edges : List Json) : Prop :=
  ∃ fields, v = .obj fields ∧ Listed fields "Nodes" "nodes" nodes ∧ Listed fields "Edges" "edges" edges

theorem collection_eq_ok {c : Collection} {smallKey : String} {items : List Json} :
    collection fields c smallKey = .ok items ↔ Listed fields c.key smallKey items := by
  rw [collection, Listed]
  cases fields.lookup c.key with
  | none =>
    rw [Option.none_or]
    cases fields.lookup smallKey with
    | none => simp
    | some value => cases value <;> simp
  | some value => cases value <;> simp

theorem ofJson_eq_ok : ofJson v = .ok g ↔ ∃ nodes edges, Delivers v nodes edges ∧
    List.Forall₂ SourceFile.Written nodes g.files ∧
    List.Forall₂ Dependency.Written edges g.dependencies := by
  cases v with
  | obj fields =>
    simp only [ofJson, bind_eq_ok, collection_eq_ok, pure_eq_ok, readRecords_eq_ok SourceFile.ofJson_eq_ok,
      readRecords_eq_ok Dependency.ofJson_eq_ok]
    constructor
    · rintro ⟨nodes, hnodes, edges, hedges, files, hfiles, dependencies, hdependencies, rfl⟩
      exact ⟨nodes, edges, ⟨fields, rfl, hnodes, hedges⟩, hfiles, hdependencies⟩
    · rintro ⟨nodes, edges, ⟨_, ⟨⟩, hnodes, hedges⟩, hfiles, hdependencies⟩
      exact ⟨nodes, hnodes, edges, hedges, _, hfiles, _, hdependencies, rfl⟩
  | _ =>
    refine iff_of_false (by rintro ⟨⟩) ?_
    rintro ⟨nodes, edges, ⟨_, ⟨⟩, -⟩, -⟩

/-- Where both lists are there, only a bad record is refused: a node before any edge, and the first of its
kind. -/
theorem ofJson_eq_error {fault : InputFault} (hv : Delivers v nodes edges) (h : ofJson v = .error fault) :
    (∃ i detail, fault = .badRecord .node i detail ∧ FirstBad SourceFile.Written nodes i) ∨
    (∀ item ∈ nodes, ∃ file, SourceFile.Written item file) ∧
      ∃ i detail, fault = .badRecord .edge i detail ∧ FirstBad Dependency.Written edges i := by
  obtain ⟨fields, rfl, hnodes, hedges⟩ := hv
  rw [ofJson, collection_eq_ok.mpr hnodes, collection_eq_ok.mpr hedges] at h
  change (readRecords .node SourceFile.ofJson 0 nodes >>= _) = _ at h
  rcases bind_eq_error.mp h with hfiles | ⟨files, hfiles, hrest⟩
  · obtain ⟨i, detail, rfl, hbad⟩ := readRecords_eq_error SourceFile.ofJson_eq_ok hfiles
    rw [Nat.zero_add]
    exact Or.inl ⟨i, detail, rfl, hbad⟩
  · have hgood := exists_forall₂_iff.mp ⟨files, (readRecords_eq_ok SourceFile.ofJson_eq_ok).mp hfiles⟩
    rcases bind_eq_error.mp hrest with hdependencies | ⟨dependencies, -, hpure⟩
    · obtain ⟨i, detail, rfl, hbad⟩ := readRecords_eq_error Dependency.ofJson_eq_ok hdependencies
      rw [Nat.zero_add]
      exact Or.inr ⟨hgood, i, detail, rfl, hbad⟩
    · cases hpure

/-- A graph document is accepted exactly if it is an object with a list of nodes and a list of edges and every
record is of the right form; then the graph has the records in their order. If both lists are there, but some
record is not of the right form, the fault names the first such node, or else the first such edge. -/
theorem document_accepted_iff (v : Json) :
    ((∃ g, ofJson v = .ok g) ↔ ∃ nodes edges, Delivers v nodes edges ∧
      (∀ item ∈ nodes, ∃ file, SourceFile.Written item file) ∧
      ∀ item ∈ edges, ∃ d, Dependency.Written item d) ∧
    (∀ g, ofJson v = .ok g ↔ ∃ nodes edges, Delivers v nodes edges ∧
      List.Forall₂ SourceFile.Written nodes g.files ∧
      List.Forall₂ Dependency.Written edges g.dependencies) ∧
    ∀ nodes edges fault, Delivers v nodes edges → ofJson v = .error fault →
      (∃ i detail, fault = .badRecord .node i detail ∧ fault.message = s!"node #{i}: " ++ detail.message ∧
        FirstBad SourceFile.Written nodes i) ∨
      (∀ item ∈ nodes, ∃ file, SourceFile.Written item file) ∧
        ∃ i detail, fault = .badRecord .edge i detail ∧ fault.message = s!"edge #{i}: " ++ detail.message ∧
          FirstBad Dependency.Written edges i := by
  refine ⟨?_, fun g => ofJson_eq_ok, fun nodes edges fault hv h => ?_⟩
  · simp only [ofJson_eq_ok, ← exists_forall₂_iff]
    constructor
    · rintro ⟨g, nodes, edges, hv, hfiles, hdependencies⟩
      exact ⟨nodes, edges, hv, ⟨_, hfiles⟩, ⟨_, hdependencies⟩⟩
    · rintro ⟨nodes, edges, hv, ⟨files, hfiles⟩, ⟨dependencies, hdependencies⟩⟩
      exact ⟨⟨files, dependencies⟩, nodes, edges, hv, hfiles, hdependencies⟩
  · rcases ofJson_eq_error hv h with ⟨i, detail, rfl, hbad⟩ | ⟨hgood, i, detail, rfl, hbad⟩
    · exact Or.inl ⟨i, detail, rfl, rfl, hbad⟩
    · exact Or.inr ⟨hgood, i, detail, rfl, rfl, hbad⟩

/-- A node with two ids stands behind a good one, and an edge is bad as well. -/
theorem document_accepted_iff_two_ids :
    let nodes := [.arr [.str "a"], .obj [("ID", .str "b"), ("id", .str "c")]]
    let edges := [.null]
    let v := Json.obj [("Edges", .arr edges), ("nodes", .arr nodes)]
    Delivers v nodes edges ∧ ∃ fault, ofJson v = .error fault ∧
      fault.message = "node #1: duplicate field `ID`" ∧ FirstBad SourceFile.Written nodes 1 := by
  intro nodes edges v
  have hv : Delivers v nodes edges := ⟨_, rfl, Or.inr ⟨rfl, rfl⟩, Or.inl rfl⟩
  have h : ofJson v = .error (.badRecord .node 1 (.duplicate "ID")) := rfl
  refine ⟨hv, _, h, by decide, ?_⟩
  rcases (document_accepted_iff v).2.2 nodes edges _ hv h with ⟨i, detail, he, -, hbad⟩ | ⟨-, i, _, he, -⟩
  · cases he
    exact hbad
  · cases he

/-- The small key counts only without the capitalised one, and keys that name no field are passed over. -/
example : ofJson (.obj [("Edges", .arr [.arr [.str "a", .str "b"]]),
    ("Nodes", .arr [.obj [("dependency_count", .int 2), ("id", .str "a"), ("size", .null)], .arr [.str "b"]]),
    ("nodes", .null)]) = .ok ⟨[⟨"a", "", 2⟩, ⟨"b", "", 0⟩], [⟨"a", "b"⟩]⟩ := rfl

end SourceGraph

end Foldergram
