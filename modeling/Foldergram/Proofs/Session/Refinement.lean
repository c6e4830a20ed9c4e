import Foldergram.Proofs.Projection.Nodes
import Foldergram.Session

/-!
Sessions have no memory beyond the graph that they hold. However a session has been used, it answers as
if that graph had just been built and coloured.
-/

namespace Foldergram

/-- A graph together with the tree that its files make. -/
structure BuiltGraph where
  source : SourceGraph
  tree : FolderTree
  built : FolderTree.build source.files = .ok tree

namespace BuiltGraph

theorem wellFormed (g : BuiltGraph) : g.tree.WellFormed :=
  (FolderTree.wellFormed_build g.built).1

def ofSource? (g : SourceGraph) : Option BuiltGraph :=
  match h : FolderTree.build g.files with
  | .ok tree => some ⟨g, tree, h⟩
  | .error _ => none

/-- The coloured tree, never laid out. -/
def canvas (g : BuiltGraph) (p : Palette) : Canvas :=
  Canvas.paint { tree := g.tree } p

/-- What the first layout shows. -/
def view (g : BuiltGraph) (p : Palette) (f : Folding) : Checked Projection := do
  let canvas ← (g.canvas p).layout f
  return canvas.project g.source.dependencies f

theorem ofSource?_of_ok {g : SourceGraph} {t : FolderTree} (h : FolderTree.build g.files = .ok t) :
    ofSource? g = some ⟨g, t, h⟩ := by
  unfold ofSource?
  split
  · rename_i tree h'
    obtain rfl := Except.ok.inj (h.symm.trans h')
    rfl
  · rename_i h'
    rw [h] at h'
    cases h'

theorem ofSource?_of_error {g : SourceGraph} {e : Collision} (h : FolderTree.build g.files = .error e) :
    ofSource? g = none := by
  unfold ofSource?
  split
  · rename_i h'
    rw [h] at h'
    cases h'
  · rfl

/-- The nested sample, with a dependency between two of its files. -/
def nested : BuiltGraph :=
  ⟨⟨FolderTree.nestedFiles, [⟨"e", "a/d"⟩]⟩, FolderTree.nested, FolderTree.build_nestedFiles⟩

end BuiltGraph

/-- What a session can be asked. -/
inductive Request where
  | load (input : SourceGraph)
  | loadText (text : String)
  | recompute (f : Folding)
  | recompute? (f : Folding)
  | toggle (f : Folding) (id : String) (expanded : Bool)

inductive Answer where
  | loaded (result : Except GraphError Folding)
  | shown (p : Projection)
  | tried (result : Except GraphError Projection)
  | toggled (f : Folding) (result : Except GraphError Projection)

def Reply.map {α β : Type} (g : α → β) (r : Reply α) : Reply β :=
  ⟨r.session, g r.result, r.notices⟩

namespace Session

def perform (s : Session) : Request → Checked (Reply Answer)
  | .load input => .ok ((s.load input).map .loaded)
  | .loadText text => .ok ((s.loadText text).map .loaded)
  | .recompute f => (s.recompute f).map (Reply.map .shown)
  | .recompute? f => (s.recompute? f).map (Reply.map .tried)
  | .toggle f id expanded => (s.toggle f id expanded).map (Reply.map fun (f, result) => .toggled f result)

/-- The session after several requests, none of which left the coordinate range. -/
def run (s : Session) (requests : List Request) : Checked Session :=
  requests.foldlM (fun s request => do return (← s.perform request).session) s

end Session

/-- What a request attempts to load. -/
def Request.input? : Request → Option (Except InputFault SourceGraph)
  | .load input => some (.ok input)
  | .loadText text => some (SourceGraph.ofText text)
  | _ => none

namespace Config

def excludes (c : Config) (id : String) : Bool :=
  c.patterns.any (·.accepts id)

/-- The graph that an attempt to load leaves. -/
def attempt (c : Config) : Except InputFault SourceGraph → Option BuiltGraph
  | .ok input => BuiltGraph.ofSource? (input.exclude c.excludes)
  | .error _ => none

/-- The graph of the last attempt to load, unless that failed. -/
def standing (c : Config) (requests : List Request) : Option BuiltGraph :=
  (requests.filterMap Request.input?).getLast?.bind c.attempt

def loadAnswer (c : Config) : Except InputFault SourceGraph → Except GraphError Folding
  | .error fault => .error (.invalidInput fault)
  | .ok input =>
    match FolderTree.build (input.exclude c.excludes).files with
    | .error collision => .error (.idCollision collision.id)
    | .ok tree => .ok (Folding.openTo tree c.usedDepth)

def tryAnswer (c : Config) (f : Folding) : Option BuiltGraph → Checked (Except GraphError Projection)
  | none => .ok (.error .notLoaded)
  | some g => (g.view c.usedPalette f).map .ok

def showAnswer (c : Config) (f : Folding) : Option BuiltGraph → Checked Projection
  | none => .ok {}
  | some g => g.view c.usedPalette f

theorem showAnswer_eq (c : Config) (f : Folding) (g : Option BuiltGraph) :
    c.showAnswer f g = (c.tryAnswer f g).map fun
      | .ok p => p
      | .error _ => {} := by
  cases g with
  | none => rfl
  | some b =>
    rw [showAnswer, tryAnswer]
    cases b.view c.usedPalette f <;> rfl

/-- The graph that a request leaves, when there was this one before. -/
def next (c : Config) (g : Option BuiltGraph) (request : Request) : Option BuiltGraph :=
  match request.input? with
  | some input => c.attempt input
  | none => g

def toggleAnswer (c : Config) (f : Folding) (id : String) (expanded : Bool) (g : Option BuiltGraph) :
    Checked (Folding × Except GraphError Projection) :=
  if g.all (·.tree.hasFolder id) then
    (c.showAnswer (f.set id expanded) g).map fun p => (f.set id expanded, .ok p)
  else .ok (f, .error (.unknownFolder id))

/-- The answer to a request, from the graph alone. -/
def answer (c : Config) (g : Option BuiltGraph) : Request → Checked Answer
  | .load input => .ok (.loaded (c.loadAnswer (.ok input)))
  | .loadText text => .ok (.loaded (c.loadAnswer (SourceGraph.ofText text)))
  | .recompute f => (c.showAnswer f g).map .shown
  | .recompute? f => (c.tryAnswer f g).map .tried
  | .toggle f id expanded => (c.toggleAnswer f id expanded g).map fun (f, result) => .toggled f result

end Config

variable {c : Config} {g : Option BuiltGraph} {s s' : Session} {f : Folding}

/-- A loaded graph that still is the given one, apart from its boxes. -/
structure LoadedGraph.Holds (l : LoadedGraph) (c : Config) (g : BuiltGraph) : Prop where
  tree : l.canvas.tree = g.tree
  colors : l.canvas.colors = (g.canvas c.usedPalette).colors
  edges : l.edges = g.source.dependencies
  initial : l.initial = Folding.openTo g.tree c.usedDepth

/-- A session with these settings that holds the given graph, or none. -/
structure Session.Follows (s : Session) (c : Config) (g : Option BuiltGraph) : Prop where
  palette : s.palette = c.usedPalette
  openDepth : s.openDepth = c.usedDepth
  patterns : s.patterns = c.patterns
  loaded : Option.Rel (fun l g => l.Holds c g) s.loaded g

theorem LoadedGraph.Holds.layout {l : LoadedGraph} {g : BuiltGraph} {canvas : Canvas}
    (h : l.Holds c g) (hl : l.canvas.layout f = .ok canvas) :
    LoadedGraph.Holds { l with canvas := canvas } c g where
  tree := (Canvas.tree_layout hl).trans h.tree
  colors := (Canvas.colors_layout hl).trans h.colors
  edges := h.edges
  initial := h.initial

/-- The boxes that earlier layouts have left do not show. -/
theorem LoadedGraph.Holds.view {l : LoadedGraph} {g : BuiltGraph} (h : l.Holds c g) (f : Folding) :
    (l.canvas.layout f).map (·.project l.edges f) = g.view c.usedPalette f := by
  have hwf := g.wellFormed
  rw [← h.tree] at hwf
  rw [h.edges, Canvas.project_layout_congr (d := g.canvas c.usedPalette) hwf h.tree h.colors]
  rfl

/-- A reply with the given answer, from a session that from then on follows the given graph. -/
structure Answers {α : Type} (reply : Checked (Reply α)) (answer : Checked α) (c : Config)
    (g : Option BuiltGraph) : Prop where
  result : reply.map (·.result) = answer
  follows : ∀ r, reply = .ok r → r.session.Follows c g

namespace Answers

variable {α β : Type} {reply : Checked (Reply α)} {answer : Checked α}

theorem ok {r : Reply α} {a : α} (hs : r.session.Follows c g) (ha : r.result = a) :
    Answers (.ok r) (.ok a) c g := by
  refine ⟨congrArg Except.ok ha, ?_⟩
  rintro _ ⟨⟩
  exact hs

theorem error (e : Overflow) : Answers (.error e : Checked (Reply α)) (.error e) c g :=
  ⟨rfl, by rintro _ ⟨⟩⟩

/-- A reply that is computed from another one without touching the session. -/
theorem map (h : Answers reply answer c g) {wrap : Reply α → Reply β} {k : α → β}
    (hs : ∀ r, (wrap r).session = r.session) (hk : ∀ r, (wrap r).result = k r.result) :
    Answers (reply.map wrap) (answer.map k) c g := by
  obtain ⟨rfl, hf⟩ := h
  cases reply with
  | error e => exact .error e
  | ok r => exact .ok (hs r ▸ hf r rfl) (hk r)

end Answers

namespace Session

theorem recompute_eq (s : Session) (f : Folding) :
    s.recompute f = (s.recompute? f).map fun reply =>
      match reply.result with
      | .ok p => ⟨reply.session, p, reply.notices⟩
      | .error _ => ⟨reply.session, {}, reply.notices ++ [.nothingLoaded]⟩ := by
  rw [recompute]
  cases s.recompute? f with
  | error e => rfl
  | ok reply =>
    obtain ⟨session, result, notices⟩ := reply
    cases result <;> rfl

theorem toggle_eq (s : Session) (f : Folding) (id : String) (expanded : Bool) :
    s.toggle f id expanded = if s.tree?.all (·.hasFolder id) then
      (s.recompute (f.set id expanded)).map fun reply =>
        ⟨reply.session, (f.set id expanded, .ok reply.result), reply.notices⟩
    else .ok ⟨s, (f, .error (.unknownFolder id)), [.notAFolder id]⟩ := by
  rw [toggle]
  cases s.tree? <;> rfl

theorem follows_ofConfig (c : Config) : (ofConfig c).Follows c none :=
  ⟨rfl, rfl, rfl, .none⟩

namespace Follows

theorem loaded_cases (h : s.Follows c g) :
    (s.loaded = none ∧ g = none) ∨ ∃ l b, s.loaded = some l ∧ g = some b ∧ l.Holds c b := by
  have hl := h.loaded
  generalize s.loaded = loaded at hl ⊢
  cases hl with
  | none => exact Or.inl ⟨rfl, rfl⟩
  | some hl => exact Or.inr ⟨_, _, rfl, rfl, hl⟩

theorem hasFolder_eq (h : s.Follows c g) (id : String) :
    s.tree?.all (·.hasFolder id) = g.all (·.tree.hasFolder id) := by
  rcases h.loaded_cases with ⟨hs, rfl⟩ | ⟨l, b, hs, rfl, hl⟩
  · simp [tree?, hs]
  · simp [tree?, hs, hl.tree]

theorem isExcluded_eq (h : s.Follows c g) : s.isExcluded = c.excludes := by
  funext id
  rw [isExcluded, Config.excludes, h.patterns]

theorem unload (h : s.Follows c g) : s.unload.Follows c none :=
  ⟨h.palette, h.openDepth, h.patterns, .none⟩

theorem load (h : s.Follows c g) (input : SourceGraph) :
    Answers (.ok (s.load input)) (.ok (c.loadAnswer (.ok input))) c (c.attempt (.ok input)) := by
  simp only [Session.load, h.isExcluded_eq, Config.attempt, Config.loadAnswer]
  cases hb : FolderTree.build (input.exclude c.excludes).files with
  | error e =>
    rw [BuiltGraph.ofSource?_of_error hb]
    exact .ok h.unload rfl
  | ok tree =>
    rw [BuiltGraph.ofSource?_of_ok hb]
    refine .ok ⟨h.palette, h.openDepth, h.patterns, .some ⟨rfl, ?_, rfl, ?_⟩⟩ ?_
    · rw [h.palette]
      rfl
    · rw [h.openDepth]
    · rw [h.openDepth]

theorem loadText (h : s.Follows c g) (text : String) :
    Answers (.ok (s.loadText text)) (.ok (c.loadAnswer (SourceGraph.ofText text))) c
      (c.attempt (SourceGraph.ofText text)) := by
  rw [Session.loadText]
  cases SourceGraph.ofText text with
  | error fault => exact .ok h.unload rfl
  | ok input => exact h.load input

theorem recompute? (h : s.Follows c g) (f : Folding) :
    Answers (s.recompute? f) (c.tryAnswer f g) c g := by
  rcases h.loaded_cases with ⟨hs, rfl⟩ | ⟨l, b, hs, rfl, hl⟩
  · simp only [Session.recompute?, hs]
    exact .ok h rfl
  · simp only [Session.recompute?, hs, Config.tryAnswer, ← hl.view f]
    cases hc : l.canvas.layout f with
    | error e => exact .error e
    | ok canvas => exact .ok ⟨h.palette, h.openDepth, h.patterns, .some (hl.layout hc)⟩ rfl

theorem recompute (h : s.Follows c g) (f : Folding) :
    Answers (s.recompute f) (c.showAnswer f g) c g := by
  rw [recompute_eq, Config.showAnswer_eq]
  refine (h.recompute? f).map ?_ ?_
  · intro r
    split <;> rfl
  · intro r
    split <;> simp_all

theorem toggle (h : s.Follows c g) (f : Folding) (id : String) (expanded : Bool) :
    Answers (s.toggle f id expanded) (c.toggleAnswer f id expanded g) c g := by
  rw [toggle_eq, h.hasFolder_eq, Config.toggleAnswer]
  split
  · exact (h.recompute (f.set id expanded)).map (fun _ => rfl) (fun _ => rfl)
  · exact .ok h rfl

/-- One request: the answer is that of the graph alone, and the session goes on to follow the graph that
the request leaves. -/
theorem perform (h : s.Follows c g) (request : Request) :
    Answers (s.perform request) (c.answer g request) c (c.next g request) := by
  cases request with
  | load input => exact (h.load input).map (fun _ => rfl) (fun _ => rfl)
  | loadText text => exact (h.loadText text).map (fun _ => rfl) (fun _ => rfl)
  | recompute f => exact (h.recompute f).map (fun _ => rfl) (fun _ => rfl)
  | recompute? f => exact (h.recompute? f).map (fun _ => rfl) (fun _ => rfl)
  | toggle f id expanded => exact (h.toggle f id expanded).map (fun _ => rfl) (fun _ => rfl)

/-- Any number of requests, by induction on their list. -/
theorem run {requests : List Request} (h : s.Follows c g) (hr : s.run requests = .ok s') :
    s'.Follows c (requests.foldl c.next g) := by
  induction requests generalizing s g with
  | nil =>
    cases hr
    exact h
  | cons request requests ih =>
    obtain ⟨s₁, hs, hr⟩ := bind_eq_ok.mp hr
    obtain ⟨reply, hp, hs⟩ := bind_eq_ok.mp hs
    obtain rfl := pure_eq_ok.mp hs
    exact ih ((h.perform request).follows reply hp) hr

/-- A request whose answer stays in the coordinate range can be followed by others. -/
theorem exists_run_cons {request : Request} {requests : List Request} {a : Answer}
    (h : s.Follows c g) (ha : c.answer g request = .ok a)
    (hr : ∀ s₁ : Session, s₁.Follows c (c.next g request) → ∃ s', s₁.run requests = .ok s') :
    ∃ s', s.run (request :: requests) = .ok s' := by
  have hp := h.perform request
  obtain ⟨reply, hreply, -⟩ := map_eq_ok.mp (hp.result.trans ha)
  obtain ⟨s', hs'⟩ := hr reply.session (hp.follows reply hreply)
  exact ⟨s', bind_eq_ok.mpr ⟨reply.session, bind_eq_ok.mpr ⟨reply, hreply, rfl⟩, hs'⟩⟩

end Follows

end Session

namespace Config

theorem foldl_next (c : Config) (g : Option BuiltGraph) (requests : List Request) :
    requests.foldl c.next g =
      match (requests.filterMap Request.input?).getLast? with
      | some input => c.attempt input
      | none => g := by
  induction requests generalizing g with
  | nil => rfl
  | cons request requests ih =>
    rw [List.foldl_cons, ih, List.filterMap_cons, next]
    cases request.input? with
    | none => rfl
    | some input =>
      rw [List.getLast?_cons]
      cases (requests.filterMap Request.input?).getLast? <;> rfl

theorem foldl_next_none (c : Config) (requests : List Request) :
    requests.foldl c.next none = c.standing requests := by
  rw [foldl_next, standing]
  cases (requests.filterMap Request.input?).getLast? <;> rfl

end Config

/-- A session refines a machine without state: after any requests it holds the graph of the last attempt
to load, if that succeeded, and answers every further request from this graph alone. -/
theorem session_refines_stateless {requests : List Request}
    (hr : (Session.ofConfig c).run requests = .ok s) :
    (s.isLoaded = true ↔ ∃ g, c.standing requests = some g) ∧
    s.edges = ((c.standing requests).map (·.source.dependencies)).getD [] ∧
    s.initial? = (c.standing requests).map (fun g => Folding.openTo g.tree c.usedDepth) ∧
    ∀ request, (s.perform request).map (·.result) = c.answer (c.standing requests) request := by
  have h := (Session.follows_ofConfig c).run hr
  rw [Config.foldl_next_none] at h
  refine ⟨?_, ?_, ?_, fun request => (h.perform request).result⟩
  · rcases h.loaded_cases with ⟨hs, hg⟩ | ⟨l, b, hs, hg, -⟩ <;> simp [Session.isLoaded, hs, hg]
  · rcases h.loaded_cases with ⟨hs, hg⟩ | ⟨l, b, hs, hg, hl⟩
    · simp [Session.edges, hs, hg]
    · simp [Session.edges, hs, hg, hl.edges]
  · rcases h.loaded_cases with ⟨hs, hg⟩ | ⟨l, b, hs, hg, hl⟩
    · simp [Session.initial?, hs, hg]
    · simp [Session.initial?, hs, hg, hl.initial]

theorem session_refines_stateless_nested : ∃ s : Session,
    (Session.ofConfig {}).run [.loadText "", .load BuiltGraph.nested.source,
      .recompute (Folding.empty.set "a/b" false), .toggle Folding.empty "e" false] = .ok s ∧
    s.isLoaded = true ∧ s.edges = [⟨"e", "a/d"⟩] := by
  have hg : Config.attempt {} (.ok BuiltGraph.nested.source) = some BuiltGraph.nested :=
    BuiltGraph.ofSource?_of_ok BuiltGraph.nested.built
  have hl := Canvas.layout_of_ok (c := BuiltGraph.nested.canvas .standard) FolderTree.wellFormed_nested
    FolderTree.layout_nested
  obtain ⟨s, hr⟩ : ∃ s, (Session.ofConfig {}).run [.loadText "", .load BuiltGraph.nested.source,
      .recompute (Folding.empty.set "a/b" false), .toggle Folding.empty "e" false] = .ok s := by
    refine (Session.follows_ofConfig {}).exists_run_cons rfl fun s₁ h₁ => ?_
    refine h₁.exists_run_cons rfl fun s₂ h₂ => ?_
    rw [Config.next, Request.input?] at h₂
    simp only [hg] at h₂
    refine h₂.exists_run_cons (map_eq_ok.mpr ⟨_, bind_eq_ok.mpr ⟨_, hl, rfl⟩, rfl⟩) fun s₃ h₃ => ?_
    exact h₃.exists_run_cons rfl fun s₄ _ => ⟨s₄, rfl⟩
  obtain ⟨h, he, -⟩ := session_refines_stateless hr
  exact ⟨s, hr, h.mpr ⟨_, hg⟩, he⟩

end Foldergram
