import Foldergram.Proofs.Layout.Range
import Foldergram.Proofs.Projection.OpenDepth
import Foldergram.Proofs.Session.Refinement

/-!
Opening and closing folders. The user of a session keeps the folding, and every toggle that names a folder
of the loaded graph changes one entry of it; a toggle of anything else changes nothing at all.
-/

namespace Foldergram

variable {c : Config} {g : Option BuiltGraph} {b : BuiltGraph} {s : Session} {f : Folding} {id : String}
  {expanded : Bool}

theorem BuiltGraph.layout_of_view_error {p : Palette} {overflow : Overflow}
    (h : b.view p f = .error overflow) : b.tree.layout f = .error overflow := by
  rcases bind_eq_error.mp h with hl | ⟨canvas, -, hp⟩
  · exact map_eq_error.mp ((Canvas.layout_eq b.wellFormed f).symm.trans hl)
  · cases hp

theorem Config.loadAnswer_cases (c : Config) (input : Except InputFault SourceGraph) :
    (∃ e, c.loadAnswer input = .error e ∧ c.attempt input = none) ∨
      ∃ b, c.loadAnswer input = .ok (Folding.openTo b.tree c.usedDepth) ∧ c.attempt input = some b := by
  cases input with
  | error fault => exact Or.inl ⟨_, rfl, rfl⟩
  | ok input =>
    simp only [loadAnswer, attempt]
    cases hb : FolderTree.build (input.exclude c.excludes).files with
    | error collision => exact Or.inl ⟨_, rfl, BuiltGraph.ofSource?_of_error hb⟩
    | ok t => exact Or.inr ⟨⟨_, t, hb⟩, rfl, BuiltGraph.ofSource?_of_ok hb⟩

namespace Session.Follows

theorem tree?_eq (h : s.Follows c g) : s.tree? = g.map (·.tree) := by
  rcases h.loaded_cases with ⟨hs, rfl⟩ | ⟨l, b, hs, rfl, hl⟩
  · simp [tree?, hs]
  · simp [tree?, hs, hl.tree]

theorem exists_loaded (h : s.Follows c (some b)) : ∃ l, s.loaded = some l ∧ l.Holds c b := by
  rcases h.loaded_cases with ⟨-, hg⟩ | ⟨l, b', hs, hg, hl⟩
  · cases hg
  · cases hg
    exact ⟨l, hs, hl⟩

theorem edges_eq (h : s.Follows c (some b)) : s.edges = b.source.dependencies := by
  obtain ⟨l, hs, hl⟩ := h.exists_loaded
  simp [edges, hs, hl.edges]

theorem initial?_eq (h : s.Follows c (some b)) :
    s.initial? = some (Folding.openTo b.tree c.usedDepth) := by
  obtain ⟨l, hs, hl⟩ := h.exists_loaded
  simp [initial?, hs, hl.initial]

theorem layout_of_recompute_error {overflow : Overflow} (h : s.Follows c (some b))
    (hr : s.recompute f = .error overflow) : b.tree.layout f = .error overflow := by
  have hresult := (h.recompute f).result
  rw [hr] at hresult
  exact BuiltGraph.layout_of_view_error hresult.symm

/-- What a toggle of a folder can do: lay out with the entry changed, or leave the coordinate range. -/
theorem toggle_folder (h : s.Follows c (some b)) (hid : b.tree.hasFolder id = true) (f : Folding)
    (expanded : Bool) :
    (∃ overflow, s.toggle f id expanded = .error overflow ∧
      b.tree.layout (f.set id expanded) = .error overflow) ∨
    ∃ reply p, s.toggle f id expanded = .ok reply ∧ reply.result = (f.set id expanded, .ok p) ∧
      reply.session.Follows c (some b) := by
  have ht := h.toggle f id expanded
  have hresult := ht.result
  simp only [Config.toggleAnswer, Option.all_some, hid, if_true, Config.showAnswer] at hresult
  cases hr : s.toggle f id expanded with
  | error overflow =>
    rw [hr] at hresult
    exact Or.inl ⟨overflow, rfl, BuiltGraph.layout_of_view_error (map_eq_error.mp hresult.symm)⟩
  | ok reply =>
    rw [hr] at hresult
    obtain ⟨p, -, hp⟩ := map_eq_ok.mp hresult.symm
    exact Or.inr ⟨reply, p, rfl, hp.symm, ht.follows reply hr⟩

/-- What a toggle of anything else does. -/
theorem toggle_other (h : s.Follows c (some b)) (hid : b.tree.hasFolder id = false) (f : Folding)
    (expanded : Bool) :
    s.toggle f id expanded = .ok ⟨s, (f, .error (.unknownFolder id)), [.notAFolder id]⟩ := by
  rw [toggle_eq, h.hasFolder_eq, Option.all_some, hid]
  rfl

/-- A load fails and leaves no graph, or leaves one whose folders are open to the usual depth. -/
theorem load_cases {start : Reply (Except GraphError Folding)} (h : s.Follows c g)
    (hstart : (∃ input, start = s.load input) ∨ ∃ text, start = s.loadText text) :
    (∃ error, start.result = .error error ∧ start.session.Follows c none) ∨
    ∃ b, start.result = .ok (Folding.openTo b.tree c.usedDepth) ∧ start.session.Follows c (some b) := by
  obtain ⟨input, ha⟩ : ∃ input, Answers (.ok start) (.ok (c.loadAnswer input)) c (c.attempt input) := by
    rcases hstart with ⟨input, rfl⟩ | ⟨text, rfl⟩
    · exact ⟨_, h.load input⟩
    · exact ⟨_, h.loadText text⟩
  have hresult : start.result = c.loadAnswer input := Except.ok.inj ha.result
  have hfollows := ha.follows start rfl
  rcases c.loadAnswer_cases input with ⟨error, he, hg⟩ | ⟨b, hb, hg⟩
  · rw [hg] at hfollows
    exact Or.inl ⟨error, hresult.trans he, hfollows⟩
  · rw [hg] at hfollows
    exact Or.inr ⟨b, hresult.trans hb, hfollows⟩

end Session.Follows

/-- What the user of a session does with it once a graph is loaded. -/
inductive Move where
  | toggle (id : String) (expanded : Bool)
  | recompute (f : Folding)
  | recompute? (f : Folding)

namespace Move

/-- The entry of the folding that a move is to set. -/
def entry? : Move → Option (String × Bool)
  | toggle id expanded => some (id, expanded)
  | _ => none

/-- A toggle of what is no folder of the tree. -/
def isRefused (t : FolderTree) (move : Move) : Bool :=
  move.entry?.any (!t.hasFolder ·.1)

/-- The entries that moves set, those of refused toggles left out. -/
def accepted (t : FolderTree) (moves : List Move) : List (String × Bool) :=
  (moves.filterMap entry?).filter (t.hasFolder ·.1)

theorem accepted_cons {t : FolderTree} (move : Move) (moves : List Move) :
    accepted t (move :: moves) = accepted t [move] ++ accepted t moves := by
  simp only [accepted, ← List.filter_append, ← List.filterMap_append, List.singleton_append]

/-- The last toggle of a folder counts. -/
theorem get?_setAll_accepted (t : FolderTree) (f : Folding) (moves : List Move) (id : String) :
    (f.setAll (accepted t moves)).get? id =
      if t.hasFolder id then (Folding.lastFlag? (moves.filterMap entry?) id).or (f.get? id)
      else f.get? id := by
  rw [Folding.get?_setAll, accepted]
  cases hid : t.hasFolder id with
  | true => rw [Folding.lastFlag?_filter hid, if_pos rfl]
  | false =>
    have hnone : Folding.lastFlag? ((moves.filterMap entry?).filter (t.hasFolder ·.1)) id = none := by
      refine Folding.lastFlag?_eq_none fun entry he heq => ?_
      have hfolder := (List.mem_filter.mp he).2
      rw [heq, hid] at hfolder
      cases hfolder
    rw [hnone]
    rfl

end Move

/-- A session and the folding that its user keeps. -/
structure Exploration where
  session : Session
  folding : Folding

namespace Exploration

def step (e : Exploration) : Move → Checked Exploration
  | .toggle id expanded => do
    let reply ← e.session.toggle e.folding id expanded
    return ⟨reply.session, reply.result.1⟩
  | .recompute f => do return ⟨(← e.session.recompute f).session, e.folding⟩
  | .recompute? f => do return ⟨(← e.session.recompute? f).session, e.folding⟩

def run (e : Exploration) (moves : List Move) : Checked Exploration :=
  moves.foldlM step e

variable {e : Exploration} {move : Move}

theorem run_cons (e : Exploration) (move : Move) (moves : List Move) :
    e.run (move :: moves) = e.step move >>= (·.run moves) :=
  rfl

theorem step_refused (h : e.session.Follows c (some b)) (hm : move.isRefused b.tree = true) :
    e.step move = .ok e := by
  cases move with
  | toggle id expanded =>
    have hid : b.tree.hasFolder id = false := by
      simpa [Move.isRefused, Move.entry?] using hm
    rw [step, h.toggle_other hid]
    rfl
  | recompute f => cases hm
  | recompute? f => cases hm

/-- One move: it stops at coordinates out of range, or the graph stays and the folding gets the entry that
the move sets. -/
theorem step_cases (h : e.session.Follows c (some b)) (move : Move) :
    (∃ overflow f, e.step move = .error overflow ∧ b.tree.layout f = .error overflow) ∨
    ∃ e', e.step move = .ok e' ∧ e'.session.Follows c (some b) ∧
      e'.folding = e.folding.setAll (Move.accepted b.tree [move]) := by
  cases move with
  | toggle id expanded =>
    cases hid : b.tree.hasFolder id with
    | false =>
      refine Or.inr ⟨e, step_refused h (by simp [Move.isRefused, Move.entry?, hid]), h, ?_⟩
      simp [Move.accepted, Move.entry?, hid, Folding.setAll]
    | true =>
      rcases h.toggle_folder hid e.folding expanded with ⟨overflow, hr, hl⟩ | ⟨reply, p, hr, hp, hf⟩
      · exact Or.inl ⟨overflow, _, by rw [step, hr]; rfl, hl⟩
      · refine Or.inr ⟨⟨reply.session, reply.result.1⟩, by rw [step, hr]; rfl, hf, ?_⟩
        simp [Move.accepted, Move.entry?, hid, hp, Folding.setAll]
  | recompute f =>
    cases hr : e.session.recompute f with
    | error overflow => exact Or.inl ⟨overflow, f, by rw [step, hr]; rfl, h.layout_of_recompute_error hr⟩
    | ok reply =>
      exact Or.inr ⟨⟨reply.session, e.folding⟩, by rw [step, hr]; rfl, (h.recompute f).follows reply hr, rfl⟩
  | recompute? f =>
    have ha := h.recompute? f
    cases hr : e.session.recompute? f with
    | error overflow =>
      have hv := ha.result.symm
      rw [hr] at hv
      exact Or.inl ⟨overflow, f, by rw [step, hr]; rfl,
        BuiltGraph.layout_of_view_error (map_eq_error.mp hv)⟩
    | ok reply => exact Or.inr ⟨⟨reply.session, e.folding⟩, by rw [step, hr]; rfl, ha.follows reply hr, rfl⟩

/-- Any number of moves, by induction on their list. -/
theorem run_cases (h : e.session.Follows c (some b)) (moves : List Move) :
    (∃ overflow f, e.run moves = .error overflow ∧ b.tree.layout f = .error overflow) ∨
    ∃ e', e.run moves = .ok e' ∧ e'.session.Follows c (some b) ∧
      e'.folding = e.folding.setAll (Move.accepted b.tree moves) := by
  induction moves generalizing e with
  | nil => exact Or.inr ⟨e, rfl, h, rfl⟩
  | cons move moves ih =>
    rw [run_cons]
    rcases step_cases h move with ⟨overflow, f, hs, hl⟩ | ⟨e₁, hs, h₁, hf₁⟩
    · exact Or.inl ⟨overflow, f, by rw [hs]; rfl, hl⟩
    · rw [hs]
      rcases ih h₁ with ⟨overflow, f, hr, hl⟩ | ⟨e', hr, h', hf'⟩
      · exact Or.inl ⟨overflow, f, hr, hl⟩
      · refine Or.inr ⟨e', hr, h', ?_⟩
        rw [hf', hf₁, Move.accepted_cons move moves, Folding.setAll_append]

/-- Refused toggles leave no trace in a run. -/
theorem run_filter_refused (h : e.session.Follows c (some b)) (moves : List Move) :
    e.run (moves.filter (!·.isRefused b.tree)) = e.run moves := by
  induction moves generalizing e with
  | nil => rfl
  | cons move moves ih =>
    cases hm : move.isRefused b.tree with
    | true =>
      rw [List.filter_cons_of_neg (by simp [hm]), ih h, run_cons, step_refused h hm]
      rfl
    | false =>
      rw [List.filter_cons_of_pos (by simp [hm]), run_cons, run_cons]
      rcases step_cases h move with ⟨overflow, f, hs, -⟩ | ⟨e₁, hs, h₁, -⟩
      · rw [hs]
        rfl
      · rw [hs]
        exact ih h₁

end Exploration

/-- A folding in use, from the load of a graph on. It keeps one entry for each folder, with the flag of the
last toggle, or else the one that it had at the start. A toggle is refused exactly if it names no folder, and
then changes neither the folding nor anything of the session, so the run would have gone the same way without
it. Only coordinates out of range can stop a run. -/
theorem folding_follows_toggles {before : List Request} {start : Reply (Except GraphError Folding)}
    {initial : Folding} {t : FolderTree} {moves : List Move} {e : Exploration}
    (hs : (Session.ofConfig c).run before = .ok s)
    (hstart : (∃ input, start = s.load input) ∨ ∃ text, start = s.loadText text)
    (hload : start.result = .ok initial) (ht : start.session.tree? = some t)
    (hr : Exploration.run ⟨start.session, initial⟩ moves = .ok e) :
    (e.folding.entries.map Prod.fst).Nodup ∧
    (∀ id, id ∈ e.folding.entries.map Prod.fst ↔ t.hasFolder id = true) ∧
    (∀ id, t.hasFolder id = true → e.folding.get? id =
      (Folding.lastFlag? (moves.filterMap Move.entry?) id).or (initial.get? id)) ∧
    e.session.tree? = some t ∧ e.session.edges = start.session.edges ∧ e.session.initial? = some initial ∧
    (∀ id expanded reply, e.session.toggle e.folding id expanded = .ok reply →
      (reply.result.2 = .error (.unknownFolder id) ↔ t.hasFolder id = false)) ∧
    (∀ id expanded, t.hasFolder id = false → e.session.toggle e.folding id expanded =
      .ok ⟨e.session, (e.folding, .error (.unknownFolder id)), [.notAFolder id]⟩) ∧
    Exploration.run ⟨start.session, initial⟩ (moves.filter (!·.isRefused t)) = .ok e ∧
    ((∀ f, ∃ boxes, t.layout f = .ok boxes) → ∀ more, ∃ e', e.run more = .ok e') := by
  rcases ((Session.follows_ofConfig c).run hs).load_cases hstart with ⟨error, hfail, -⟩ | ⟨b, hinitial, hb⟩
  · cases hfail.symm.trans hload
  cases hinitial.symm.trans hload
  obtain rfl : b.tree = t := Option.some.inj (hb.tree?_eq.symm.trans ht)
  rcases Exploration.run_cases (e := ⟨start.session, _⟩) hb moves with ⟨overflow, f, he, -⟩ | ⟨e', he, h, hf⟩
  · cases he.symm.trans hr
  obtain rfl := Except.ok.inj (he.symm.trans hr)
  have hget := Move.get?_setAll_accepted b.tree (Folding.openTo b.tree c.usedDepth) moves
  rw [← hf] at hget
  refine ⟨Folding.nodup_entries _, ?_, ?_, h.tree?_eq, h.edges_eq.trans hb.edges_eq.symm, h.initial?_eq,
    ?_, fun id expanded hid => h.toggle_other hid _ expanded, ?_, ?_⟩
  · intro id
    have hkey := b.wellFormed.isSome_get?_openTo c.usedDepth id
    rw [Folding.mem_keys, hget]
    split
    · rename_i hid
      rw [Option.isSome_or, hkey, hid, Bool.or_true]
    · rw [hkey]
  · intro id hid
    rw [hget, if_pos hid]
  · intro id expanded reply hreply
    cases hid : b.tree.hasFolder id with
    | false =>
      cases (h.toggle_other hid e'.folding expanded).symm.trans hreply
      simp
    | true =>
      rcases h.toggle_folder hid e'.folding expanded with ⟨_, ho, -⟩ | ⟨reply', p, ho, hp, -⟩
      · cases ho.symm.trans hreply
      · cases ho.symm.trans hreply
        simp [hp]
  · rw [Exploration.run_filter_refused (e := ⟨start.session, _⟩) hb, hr]
  · intro hfits more
    rcases Exploration.run_cases h more with ⟨overflow, f, -, hl⟩ | ⟨e₁, he₁, -⟩
    · obtain ⟨boxes, hok⟩ := hfits f
      cases hok.symm.trans hl
    · exact ⟨e₁, he₁⟩

theorem folding_follows_toggles_nested :
    let start := (Session.ofConfig {}).load BuiltGraph.nested.source
    let initial := Folding.openTo FolderTree.nested 1
    let moves : List Move :=
      [.toggle "e" false, .toggle "a" true, .recompute Folding.empty, .toggle "a/b" true, .toggle "a" false]
    (Session.ofConfig {}).run [] = .ok (Session.ofConfig {}) ∧ start.result = .ok initial ∧
    start.session.tree? = some FolderTree.nested ∧
    ∃ e, Exploration.run ⟨start.session, initial⟩ moves = .ok e ∧
      e.folding.get? "a" = some false ∧ e.folding.get? "a/b" = some true ∧
      "e" ∉ e.folding.entries.map Prod.fst := by
  intro start initial moves
  have hs : (Session.ofConfig {}).run [] = .ok (Session.ofConfig {}) := rfl
  have hload : start.result = .ok initial := rfl
  have ht : start.session.tree? = some FolderTree.nested := rfl
  have hfits : ∀ f, ∃ boxes, FolderTree.nested.layout f = .ok boxes :=
    FolderTree.exists_layout (by decide)
  have hnone : Exploration.run ⟨start.session, initial⟩ [] = .ok ⟨start.session, initial⟩ := rfl
  obtain ⟨-, -, -, -, -, -, -, -, -, hmore⟩ :=
    folding_follows_toggles hs (Or.inl ⟨_, rfl⟩) hload ht hnone
  obtain ⟨e, he⟩ := hmore hfits moves
  obtain ⟨-, hkeys, hflags, -⟩ := folding_follows_toggles hs (Or.inl ⟨_, rfl⟩) hload ht he
  refine ⟨hs, hload, ht, e, he, ?_, ?_, ?_⟩
  · rw [hflags "a" (by decide)]
    rfl
  · rw [hflags "a/b" (by decide)]
    rfl
  · intro hm
    exact absurd ((hkeys "e").mp hm) (by decide)

end Foldergram
