import Foldergram.Command.Run
import Foldergram.Proofs.Session.InputOrder
import Foldergram.Proofs.Session.Toggling

/-!
What a command line shows. Which folders are open follows from the lists of folders to open and to close, in
whatever order and however often they name them.
-/

namespace Foldergram

variable {c : Config} {b : BuiltGraph} {s s' : Session} {f : Folding} {t : FolderTree}

/-- Recomputing forgets how the graph has been laid out before. -/
theorem Session.Follows.recompute_congr {r : Reply Projection} (h : s.Follows c (some b))
    (h' : s'.Follows c (some b)) (hr : s.recompute f = .ok r) :
    ∃ r', s'.recompute f = .ok r' ∧ r'.result = r.result ∧ r'.session.stats? = r.session.stats? := by
  have hresult := (h.recompute f).result.trans (h'.recompute f).result.symm
  rw [hr] at hresult
  obtain ⟨r', hr', he⟩ := map_eq_ok.mp hresult.symm
  refine ⟨r', hr', he, ?_⟩
  obtain ⟨l, hl, hold⟩ := h.exists_loaded
  obtain ⟨l', hl', hold'⟩ := h'.exists_loaded
  rw [recompute_of_some hl] at hr
  rw [recompute_of_some hl'] at hr'
  obtain ⟨canvas, hc, rfl⟩ := map_eq_ok.mp hr
  obtain ⟨canvas', hc', rfl⟩ := map_eq_ok.mp hr'
  have ht : canvas.tree = b.tree := (Canvas.tree_layout hc).trans hold.tree
  have ht' : canvas'.tree = b.tree := (Canvas.tree_layout hc').trans hold'.tree
  have hroot : canvas.box rootId = canvas'.box rootId := by
    refine Canvas.box_layout_congr (hold.tree ▸ b.wellFormed) (hold'.tree ▸ b.wellFormed) ?_ hc hc' rootId ?_
    · rw [hold.tree, hold'.tree]
    · rw [ht]
      exact b.wellFormed.mem_visibleIds.mpr b.wellFormed.shows_rootId
  funext p
  simp only [stats?, Option.map_some, Canvas.stats, ht, ht', hroot, hold.edges, hold'.edges]

namespace Command

theorem run_liftM_bind {α β : Type} (x : Checked α) (k : α → Outcome β) :
    ((liftM x : Outcome α) >>= k).run = x >>= fun a => (k a).run := by
  cases x <;> rfl

theorem run_bind_of_ok {α β : Type} {x : Outcome α} {a : α} (hx : x.run = .ok (.ok a)) (k : α → Outcome β) :
    (x >>= k).run = (k a).run := by
  rw [ExceptT.run_bind, hx]
  rfl

theorem run_bind_of_failure {α β : Type} {x : Outcome α} {failure : Failure}
    (hx : x.run = .ok (.error failure)) (k : α → Outcome β) : (x >>= k).run = .ok (.error failure) := by
  rw [ExceptT.run_bind, hx]
  rfl

theorem run_bind_of_overflow {α β : Type} {x : Outcome α} {overflow : Overflow}
    (hx : x.run = .error overflow) (k : α → Outcome β) : (x >>= k).run = .error overflow := by
  rw [ExceptT.run_bind, hx]
  rfl

section ToggleAll

variable {id : String} {ids : List String} {expanded : Bool} {failure : String → GraphError → Failure}
  {reply : Reply (Folding × Except GraphError Projection)}

theorem toggleAll_of_error {error : GraphError} (ht : s.toggle f id expanded = .ok reply)
    (hr : reply.result = (f, .error error)) :
    (toggleAll expanded failure s f (id :: ids)).run = .ok (.error (failure id error)) := by
  rw [toggleAll, run_liftM_bind, ht]
  simp only [bind, Except.bind, hr]
  rfl

theorem toggleAll_of_ok {f' : Folding} {p : Projection} (ht : s.toggle f id expanded = .ok reply)
    (hr : reply.result = (f', .ok p)) :
    (toggleAll expanded failure s f (id :: ids)).run =
      (toggleAll expanded failure reply.session f' ids).run := by
  rw [toggleAll, run_liftM_bind, ht]
  simp only [bind, Except.bind, hr]

theorem toggleAll_of_overflow {overflow : Overflow} (ht : s.toggle f id expanded = .error overflow) :
    (toggleAll expanded failure s f (id :: ids)).run = .error overflow := by
  rw [toggleAll, run_liftM_bind, ht]
  rfl

/-- Opening or closing one folder after another, by induction on the list: it stops at coordinates out of
range or at the first id that is no folder, or sets all entries. -/
theorem toggleAll_cases (h : s.Follows c (some b)) (expanded : Bool) (failure : String → GraphError → Failure)
    (f : Folding) (ids : List String) :
    (∃ overflow f', (toggleAll expanded failure s f ids).run = .error overflow ∧
      b.tree.layout f' = .error overflow) ∨
    (∃ id, ids.find? (!b.tree.hasFolder ·) = some id ∧
      (toggleAll expanded failure s f ids).run = .ok (.error (failure id (.unknownFolder id)))) ∨
    (ids.find? (!b.tree.hasFolder ·) = none ∧ ∃ s' : Session, s'.Follows c (some b) ∧
      (toggleAll expanded failure s f ids).run = .ok (.ok (s', f.setAll (ids.map (·, expanded))))) := by
  induction ids generalizing s f with
  | nil => exact Or.inr (Or.inr ⟨rfl, s, h, rfl⟩)
  | cons id ids ih =>
    cases hid : b.tree.hasFolder id with
    | false =>
      have ht := h.toggle_other hid f expanded
      exact Or.inr (Or.inl ⟨id, List.find?_cons_of_pos (by simp [hid]), toggleAll_of_error ht rfl⟩)
    | true =>
      rw [List.find?_cons_of_neg (by simp [hid])]
      rcases h.toggle_folder hid f expanded with ⟨overflow, ht, hl⟩ | ⟨reply, p, ht, hr, h'⟩
      · exact Or.inl ⟨overflow, _, toggleAll_of_overflow ht, hl⟩
      · rw [toggleAll_of_ok ht hr]
        exact ih h' (f.set id expanded)

end ToggleAll

/-- A view of a folding as a session shows it that has loaded the graph. -/
structure View.Shows (v : View) (s : Session) (f : Folding) : Prop where
  folding : v.folding = f
  fresh : ∃ reply, s.recompute f = .ok reply ∧ reply.result = v.projection ∧
    reply.session.stats? = v.session.stats?

namespace Invocation

variable {i : Invocation} {config : Config} {text : String}

/-- The ids to open and then those to close, with how a refusal is reported. -/
def toggles (i : Invocation) : List (String × (String → GraphError → Failure)) :=
  i.expand.map (·, .cannotExpand) ++ i.collapse.map (·, .cannotCollapse)

/-- The report of the first id that is no folder. -/
def refusal? (i : Invocation) (t : FolderTree) : Option Failure :=
  (i.toggles.find? (!t.hasFolder ·.1)).map fun (id, failure) => failure id (.unknownFolder id)

/-- Whether a folder is to be open: not if it is to be closed; otherwise if it or everything is to be opened,
or if it lies less deep than folders are open. -/
def opens (i : Invocation) (depth : Nat) (id : String) : Bool :=
  if id ∈ i.collapse then false
  else if i.expandAll = true ∨ id ∈ i.expand then true
  else decide (depthOf id < depth)

/-- What the toggles make of the folding after the load. -/
def foldingFrom (i : Invocation) (initial : Folding) : Folding :=
  ((if i.expandAll then initial.openAll else initial).setAll (i.expand.map (·, true))).setAll
    (i.collapse.map (·, false))

theorem refusal?_eq (i : Invocation) (t : FolderTree) :
    i.refusal? t = ((i.expand.find? (!t.hasFolder ·)).map fun id => .cannotExpand id (.unknownFolder id)).or
      ((i.collapse.find? (!t.hasFolder ·)).map fun id => .cannotCollapse id (.unknownFolder id)) := by
  simp only [refusal?, toggles, List.find?_append, List.find?_map, Option.map_or, Option.map_map]
  rfl

theorem refusal?_eq_none_iff : i.refusal? t = none ↔ ∀ id ∈ i.expand ++ i.collapse, t.hasFolder id = true := by
  simp [refusal?_eq, or_imp, forall_and]

theorem get?_foldingFrom (h : t.WellFormed)
    (hids : ∀ id ∈ i.expand ++ i.collapse, t.hasFolder id = true) {depth : Nat} {id : String}
    {flag : Bool} : (i.foldingFrom (Folding.openTo t depth)).get? id = some flag ↔
      t.hasFolder id = true ∧ flag = i.opens depth id := by
  simp only [foldingFrom, Folding.get?_setAll, Folding.lastFlag?_map_const, opens]
  by_cases hc : id ∈ i.collapse
  · have hid := hids id (List.mem_append_right _ hc)
    cases flag <;> simp [hc, hid]
  · by_cases he : id ∈ i.expand
    · have hid := hids id (List.mem_append_left _ he)
      cases flag <;> simp [hc, he, hid]
    · cases ha : i.expandAll with
      | true => cases flag <;> simp [hc, he, Folding.get?_openAll, h.get?_openTo]
      | false => simp [hc, he, h.get?_openTo]

theorem view_of_error {error : GraphError}
    (h : ((Session.ofConfig config).loadText text).result = .error error) :
    (i.view config text).run = .ok (.error (.graphRefused i.graph error)) := by
  rw [view, h]
  rfl

theorem view_of_ok {initial : Folding}
    (h : ((Session.ofConfig config).loadText text).result = .ok initial) :
    i.view config text = do
      let (s, f) ← toggleAll true .cannotExpand ((Session.ofConfig config).loadText text).session
        (if i.expandAll then initial.openAll else initial) i.expand
      let (s, f) ← toggleAll false .cannotCollapse s f i.collapse
      let reply ← liftM (s.recompute f)
      return ⟨reply.session, f, reply.result⟩ := by
  rw [view, h]

section Loaded

variable {initial : Folding} {outcome : Except Failure View}
  (hload : ((Session.ofConfig config).loadText text).result = .ok initial)
  (h : ((Session.ofConfig config).loadText text).session.Follows config (some b))

include hload h

/-- How a view comes about once the graph is loaded: coordinates leave their range, or a toggle is refused,
or the folding shows. -/
theorem view_cases (i : Invocation) :
    (∃ overflow f, (i.view config text).run = .error overflow ∧ b.tree.layout f = .error overflow) ∨
    (∃ failure, i.refusal? b.tree = some failure ∧ (i.view config text).run = .ok (.error failure)) ∨
    (i.refusal? b.tree = none ∧ ∃ v, (i.view config text).run = .ok (.ok v) ∧
      v.Shows ((Session.ofConfig config).loadText text).session (i.foldingFrom initial)) := by
  rw [view_of_ok hload, refusal?_eq]
  rcases toggleAll_cases h true .cannotExpand (if i.expandAll then initial.openAll else initial) i.expand with
    ⟨overflow, f, ht, hl⟩ | ⟨id, hid, ht⟩ | ⟨hids, s₁, h₁, ht⟩
  · exact Or.inl ⟨overflow, f, run_bind_of_overflow ht _, hl⟩
  · exact Or.inr (Or.inl ⟨_, by rw [hid]; rfl, run_bind_of_failure ht _⟩)
  rw [run_bind_of_ok ht, hids]
  rcases toggleAll_cases h₁ false .cannotCollapse _ i.collapse with
    ⟨overflow, f, ht, hl⟩ | ⟨id, hid, ht⟩ | ⟨hids, s₂, h₂, ht⟩
  · exact Or.inl ⟨overflow, f, run_bind_of_overflow ht _, hl⟩
  · exact Or.inr (Or.inl ⟨_, by rw [hid]; rfl, run_bind_of_failure ht _⟩)
  rw [run_bind_of_ok ht, hids, run_liftM_bind]
  cases hr : s₂.recompute (i.foldingFrom initial) with
  | error overflow => exact Or.inl ⟨overflow, _, congrArg (· >>= _) hr, h₂.layout_of_recompute_error hr⟩
  | ok reply =>
    obtain ⟨fresh, hfresh, hp, hstats⟩ := h₂.recompute_congr h hr
    exact Or.inr (Or.inr ⟨rfl, ⟨reply.session, i.foldingFrom initial, reply.result⟩, congrArg (· >>= _) hr,
      rfl, fresh, hfresh, hp, hstats⟩)

theorem outcome_cases (hr : (i.view config text).run = .ok outcome) :
    (∃ failure, i.refusal? b.tree = some failure ∧ outcome = .error failure) ∨
    (i.refusal? b.tree = none ∧ ∃ v, outcome = .ok v ∧
      v.Shows ((Session.ofConfig config).loadText text).session (i.foldingFrom initial)) := by
  rcases view_cases hload h i with ⟨overflow, f, ho, -⟩ | ⟨failure, hf, ho⟩ | ⟨hf, v, ho, hv⟩
  · cases ho.symm.trans hr
  · exact Or.inl ⟨failure, hf, Except.ok.inj (hr.symm.trans ho)⟩
  · exact Or.inr ⟨hf, v, Except.ok.inj (hr.symm.trans ho), hv⟩

theorem exists_view_iff (hr : (i.view config text).run = .ok outcome) :
    (∃ v, outcome = .ok v) ↔ ∀ id ∈ i.expand ++ i.collapse, b.tree.hasFolder id = true := by
  rw [← refusal?_eq_none_iff]
  rcases outcome_cases hload h hr with ⟨failure, hf, rfl⟩ | ⟨hf, v, rfl, -⟩ <;> simp [hf]

theorem failure_iff (hr : (i.view config text).run = .ok outcome) (failure : Failure) :
    outcome = .error failure ↔ i.refusal? b.tree = some failure := by
  rcases outcome_cases hload h hr with ⟨failure', hf, rfl⟩ | ⟨hf, v, rfl, -⟩ <;> simp [hf]

theorem shows_of_view {v : View} (hr : (i.view config text).run = .ok (.ok v)) :
    v.Shows ((Session.ofConfig config).loadText text).session (i.foldingFrom initial) := by
  rcases outcome_cases hload h hr with ⟨_, -, hv⟩ | ⟨-, v', hv, hshows⟩
  · cases hv
  · cases hv
    exact hshows

end Loaded

/-- Command lines that differ at most in how they order and repeat the ids to open and those to close. -/
structure Restates (j i : Invocation) : Prop where
  expand : ∀ id, id ∈ j.expand ↔ id ∈ i.expand
  collapse : ∀ id, id ∈ j.collapse ↔ id ∈ i.collapse
  rest : { j with expand := i.expand, collapse := i.collapse } = i

variable {j : Invocation}

theorem Restates.mem_iff (h : j.Restates i) (id : String) :
    id ∈ j.expand ++ j.collapse ↔ id ∈ i.expand ++ i.collapse := by
  simp only [List.mem_append, h.expand, h.collapse]

theorem Restates.expandAll_eq (h : j.Restates i) : j.expandAll = i.expandAll := by
  have hrest := congrArg Invocation.expandAll h.rest
  exact hrest

theorem Restates.foldingFrom_eq (h : j.Restates i) (initial : Folding) :
    j.foldingFrom initial = i.foldingFrom initial := by
  apply Folding.eq_of_get?
  intro id
  simp only [foldingFrom, Folding.get?_setAll, Folding.lastFlag?_map_const, h.expand, h.collapse, h.expandAll_eq]

/-- A folding of a graph is shown in one way. -/
theorem Restates.shows_same (h : j.Restates i) {v w : View} (hw : w.Shows s f) (hv : v.Shows s f) :
    w.folding = v.folding ∧ w.projection = v.projection ∧ j.product w = i.product v := by
  have hfolding := hw.folding.trans hv.folding.symm
  obtain ⟨reply, hr, hp, hstats⟩ := hv.fresh
  obtain ⟨reply', hr', hp', hstats'⟩ := hw.fresh
  cases hr.symm.trans hr'
  have hprojection := hp'.symm.trans hp
  have hfigures := hstats'.symm.trans hstats
  refine ⟨hfolding, hprojection, ?_⟩
  have hrest := h.rest
  cases j
  cases i
  cases hrest
  simp only [product, hfolding, hprojection, hfigures]
  rfl

end Invocation

/-- What a command line shows. Only coordinates out of range keep it from an outcome. It has a view exactly if
the text loads and every id that it names is a folder; otherwise it reports the text, or the first of the ids
to open and to close that is no folder. In a view, each folder has one entry with the flag that was asked for,
and the projection is that of a session that has just loaded the text. Order and repetition of the ids make
no difference to what is shown. -/
theorem view_as_asked (i : Invocation) (config : Config) (text : String) :
    let loaded := (Session.ofConfig config).loadText text
    (∀ overflow, (i.view config text).run = .error overflow →
      ∃ t f, loaded.session.tree? = some t ∧ t.layout f = .error overflow) ∧
    ∀ outcome, (i.view config text).run = .ok outcome →
      ((∃ v, outcome = .ok v) ↔ ∃ initial t, loaded.result = .ok initial ∧ loaded.session.tree? = some t ∧
        ∀ id ∈ i.expand ++ i.collapse, t.hasFolder id = true) ∧
      (∀ error, loaded.result = .error error → outcome = .error (.graphRefused i.graph error)) ∧
      ∀ t, loaded.session.tree? = some t →
        (∀ failure, outcome = .error failure ↔ i.refusal? t = some failure) ∧
        ∀ v, outcome = .ok v →
          (v.folding.entries.map Prod.fst).Nodup ∧
          (∀ id flag, (id, flag) ∈ v.folding.entries ↔
            t.hasFolder id = true ∧ flag = i.opens config.usedDepth id) ∧
          (∃ reply, loaded.session.recompute v.folding = .ok reply ∧ reply.result = v.projection) ∧
          ∀ (j : Invocation) outcome', j.Restates i → (j.view config text).run = .ok outcome' →
            ∃ w, outcome' = .ok w ∧ w.folding = v.folding ∧ w.projection = v.projection ∧
              j.product w = i.product v := by
  intro loaded
  rcases (Session.follows_ofConfig config).load_cases (Or.inr ⟨text, rfl⟩) with ⟨error, he, h⟩ | ⟨b, hload, h⟩
  · have hv : (i.view config text).run = .ok (.error (.graphRefused i.graph error)) :=
      Invocation.view_of_error he
    refine ⟨fun overflow hr => ?_, fun outcome hr => ?_⟩
    · cases hv.symm.trans hr
    · cases hv.symm.trans hr
      refine ⟨⟨?_, ?_⟩, ?_, ?_⟩
      · rintro ⟨v, ⟨⟩⟩
      · rintro ⟨initial, t, hi, -⟩
        cases he.symm.trans hi
      · intro error' he'
        cases he.symm.trans he'
        rfl
      · intro t ht
        cases h.tree?_eq.symm.trans ht
  · have htree : loaded.session.tree? = some b.tree := h.tree?_eq
    refine ⟨fun overflow hr => ?_, fun outcome hr => ⟨?_, ?_, ?_⟩⟩
    · rcases Invocation.view_cases hload h i with ⟨_, f, ho, hl⟩ | ⟨_, -, ho⟩ | ⟨-, _, ho, -⟩
      · cases ho.symm.trans hr
        exact ⟨b.tree, f, htree, hl⟩
      · cases ho.symm.trans hr
      · cases ho.symm.trans hr
    · rw [Invocation.exists_view_iff hload h hr]
      constructor
      · intro hids
        exact ⟨_, b.tree, hload, htree, hids⟩
      · rintro ⟨_, t, -, ht, hids⟩
        cases htree.symm.trans ht
        exact hids
    · intro error he
      cases hload.symm.trans he
    · intro t ht
      cases htree.symm.trans ht
      refine ⟨Invocation.failure_iff hload h hr, ?_⟩
      rintro v rfl
      have hids := (Invocation.exists_view_iff hload h hr).mp ⟨v, rfl⟩
      have hv := Invocation.shows_of_view hload h hr
      refine ⟨Folding.nodup_entries _, ?_, ?_, ?_⟩
      · intro id flag
        rw [Folding.mem_entries, hv.folding, Invocation.get?_foldingFrom b.wellFormed hids]
      · obtain ⟨reply, hreply, hp, -⟩ := hv.fresh
        rw [hv.folding]
        exact ⟨reply, hreply, hp⟩
      · intro j outcome' hj hr'
        have hids' : ∀ id ∈ j.expand ++ j.collapse, b.tree.hasFolder id = true := by
          intro id hid
          exact hids id ((hj.mem_iff id).mp hid)
        obtain ⟨w, rfl⟩ := (Invocation.exists_view_iff hload h hr').mpr hids'
        have hw := Invocation.shows_of_view hload h hr'
        rw [hj.foldingFrom_eq] at hw
        exact ⟨w, rfl, hj.shows_same hw hv⟩

/-- The nested sample as a text, its records written as arrays. -/
def nestedText : String :=
  "\x7b\"nodes\": [[\"a/b/c\"], [\"a/d\", \"\", 2], [\"e\"]], \"edges\": [[\"e\", \"a/d\"]]\x7d"

theorem ofText_nestedText : SourceGraph.ofText nestedText = .ok BuiltGraph.nested.source := by
  have hread : (SourceGraph.ofText nestedText).toOption = some BuiltGraph.nested.source := by decide +kernel
  cases ht : SourceGraph.ofText nestedText with
  | error fault =>
    rw [ht] at hread
    cases hread
  | ok source =>
    rw [ht] at hread
    exact congrArg Except.ok (Option.some.inj hread)

theorem view_as_asked_nested :
    let i : Invocation :=
      ⟨"-", ["a", "a/b"], ["a/b"], false, none, .export .mermaid true none⟩
    let j : Invocation :=
      ⟨"-", ["a/b", "a", "a"], ["a/b", "a/b"], false, none, .export .mermaid true none⟩
    let k : Invocation := ⟨"-", ["root"], ["a", "e", "f"], true, none, .export .mermaid true none⟩
    (∃ v w, (i.view {} nestedText).run = .ok (.ok v) ∧ (j.view {} nestedText).run = .ok (.ok w) ∧
      ("a", true) ∈ v.folding.entries ∧ ("a/b", false) ∈ v.folding.entries ∧ j.product w = i.product v) ∧
    (k.view {} nestedText).run = .ok (.error (.cannotCollapse "e" (.unknownFolder "e"))) := by
  intro i j k
  have hload : ((Session.ofConfig {}).loadText nestedText).result = .ok (Folding.openTo FolderTree.nested 1) := by
    rw [Session.loadText, ofText_nestedText]
    rfl
  have htree : ((Session.ofConfig {}).loadText nestedText).session.tree? = some FolderTree.nested := by
    rw [Session.loadText, ofText_nestedText]
    rfl
  have hruns : ∀ i : Invocation, ∃ outcome, (i.view {} nestedText).run = .ok outcome := by
    intro i
    cases hr : (i.view {} nestedText).run with
    | ok outcome => exact ⟨outcome, rfl⟩
    | error overflow =>
      obtain ⟨t, f, ht, hl⟩ := (view_as_asked i {} nestedText).1 overflow hr
      cases htree.symm.trans ht
      obtain ⟨boxes, hok⟩ := FolderTree.exists_layout (t := FolderTree.nested) (by decide) f
      cases hok.symm.trans hl
  refine ⟨?_, ?_⟩
  · obtain ⟨outcome, hr⟩ := hruns i
    obtain ⟨outcome', hr'⟩ := hruns j
    obtain ⟨hview, -, hloaded⟩ := (view_as_asked i {} nestedText).2 outcome hr
    obtain ⟨v, rfl⟩ := hview.mpr ⟨_, _, hload, htree, by decide⟩
    obtain ⟨-, hentries, -, hsame⟩ := (hloaded _ htree).2 v rfl
    have hj : j.Restates i := ⟨by simp [i, j, or_comm], by simp [i, j], rfl⟩
    obtain ⟨w, rfl, -, -, hproduct⟩ := hsame j outcome' hj hr'
    exact ⟨v, w, hr, hr', (hentries _ _).mpr (by decide), (hentries _ _).mpr (by decide), hproduct⟩
  · obtain ⟨outcome, hr⟩ := hruns k
    obtain ⟨-, -, hloaded⟩ := (view_as_asked k {} nestedText).2 outcome hr
    rw [hr, ((hloaded _ htree).1 _).mpr (by rfl)]

end Command

end Foldergram
