import Mathlib.Tactic.Set
import RenderFlow.Graph.Session
import RenderFlow.Proofs.Graph.Attempts
import RenderFlow.Proofs.Graph.Requests

/-!
A builder and all layouts that were taken from it. They share their nodes, so a refiner that works on
one layout moves the nodes of all of them and of the builder, but it draws only its own edges again.
Main statement: a layout that is taken is anchored exactly if the ends of its edges still stand where
they stood when the edges were added, `Workshop.takeLayout_anchored_iff`.
-/
namespace RenderFlow.Graph

inductive Refinement where
  | pack
  | pair (facts : Facts)
  | refresh
  | fit

namespace Refinement

def attempt : Refinement → Attempt
  | .pack => .pack
  | .pair facts => .pairStates facts
  | .refresh => .refresh
  | .fit => .fit

def moves : Refinement → Bool
  | .pack | .pair _ => true
  | .refresh | .fit => false

end Refinement

/-- The ends of an edge are looked up in the builder. A layout is told by how many were taken before
it. -/
inductive Act where
  | addNode (n : Node) (unwritten : n.written = none)
  | stackColumn (r : ColumnRequest)
  | addEdge (id : Json) (source target : Option String) (kind label : Json)
  | takeLayout
  | refine (index : Nat) (refinement : Refinement)

def Act.moves : Act → Bool
  | .refine _ refinement => refinement.moves
  | _ => false

structure Workshop where
  builder : Builder
  drafts : List Draft := []

namespace Workshop

def start (columns : Columns) : Workshop where
  builder := { columns := columns }

def session (w : Workshop) (d : Draft) : Session :=
  ⟨w.builder, d⟩

def step (w : Workshop) : Act → Workshop
  | .addNode n _ => { w with builder := ((w.session .absent).addNode n).1.builder }
  | .stackColumn r => { w with builder := ((w.session .absent).stackColumn r).1.builder }
  | .addEdge id source target kind label =>
    let r := ⟨id, source.bind w.builder.node?, target.bind w.builder.node?, kind, label⟩
    match (w.session .absent).addEdge r with
    | .ok (s, _) => { w with builder := s.builder }
    | .error _ => w
  | .takeLayout =>
    match (w.session .absent).take with
    | (s, none) => { w with drafts := w.drafts ++ [s.draft] }
    | (_, some _) => w
  | .refine index refinement =>
    match w.drafts[index]? with
    | some d =>
      let s := ((w.session d).revise refinement.attempt).1
      { builder := s.builder, drafts := w.drafts.set index s.draft }
    | none => w

def run (w : Workshop) (acts : List Act) : Workshop :=
  acts.foldl step w

def layouts (w : Workshop) : List Layout :=
  w.drafts.filterMap fun d => (w.session d).layout?

/-- The step adds this edge between these nodes as they stand. -/
structure Draws (w : Workshop) (act : Act) (source target : Node) (e : Edge) : Prop where
  leaves : source ∈ w.builder.nodes
  enters : target ∈ w.builder.nodes
  drawn : e = .between e.id source target e.kind e.label
  added : (w.step act).builder.edges = w.builder.edges ++ [e]

end Workshop

structure Draft.IsTaken (nodes : List Node) (count : Nat) (canvas : Canvas) : Prop where
  short : count ≤ nodes.length
  known : ∀ e ∈ canvas.edges, e.IsKnown (nodes.take count)

theorem nodeIds_take (nodes : List Node) (count : Nat) :
    nodeIds (nodes.take count) = (nodeIds nodes).take count :=
  List.map_take

theorem Draft.IsTaken.mono {nodes others : List Node} {count : Nat} {canvas : Canvas}
    (taken : IsTaken nodes count canvas) (longer : nodeIds nodes <+: nodeIds others) :
    IsTaken others count canvas := by
  have length : nodes.length ≤ others.length := by
    simpa [nodeIds] using longer.length_le
  refine ⟨taken.short.trans length, fun e within => (taken.known e within).congr ?_⟩
  obtain ⟨more, same⟩ := longer
  have short : count ≤ (nodeIds nodes).length := by simpa [nodeIds] using taken.short
  rw [nodeIds_take, nodeIds_take, ← same, List.take_append_of_le_length short]

namespace Builder

@[simp] theorem nodes_toLayout (b : Builder) : b.toLayout.nodes = b.nodes :=
  b.spread.nodes_fit

@[simp] theorem edges_toLayout (b : Builder) : b.toLayout.edges = b.edges :=
  b.spread.edges_fit

end Builder

namespace Workshop

/-- What holds in a workshop at any time. -/
structure Sound (w : Workshop) : Prop where
  distinct : (nodeIds w.builder.nodes).Nodup
  unwritten : ∀ n ∈ w.builder.nodes, n.written = none
  known : ∀ e ∈ w.builder.edges, e.IsKnown w.builder.nodes
  drafts : ∀ d ∈ w.drafts, ∃ count canvas, d = .shared count canvas ∧
    Draft.IsTaken w.builder.nodes count canvas

variable {w : Workshop}

theorem sound_start (columns : Columns) : (start columns).Sound :=
  ⟨List.nodup_nil, by simp [start], by simp [start], by simp [start]⟩

theorem Sound.coherent (sound : w.Sound) : w.builder.toLayout.Coherent := by
  constructor
  · rw [Builder.nodes_toLayout]
    exact sound.distinct
  · rw [Builder.nodes_toLayout, Builder.edges_toLayout]
    exact sound.known

theorem Sound.take_eq (sound : w.Sound) :
    (w.session .absent).take = ((w.session .absent).share w.builder.toLayout, none) :=
  Session.take_eq (s := w.session .absent) sound.unwritten

theorem Sound.of_grows (sound : w.Sound) {b : Builder} (grows : w.builder.Grows b) :
    Sound { w with builder := b } := by
  obtain ⟨more, longer, unwritten⟩ := grows.nodes
  have ids : nodeIds w.builder.nodes <+: nodeIds b.nodes := by
    rw [longer, nodeIds_append]
    exact List.prefix_append _ _
  refine ⟨grows.distinct sound.distinct, ?_, ?_, ?_⟩
  · rw [longer]
    exact fun n within => (List.mem_append.mp within).elim (sound.unwritten n) (unwritten n)
  · rw [grows.edges]
    exact fun e within => (sound.known e within).mono ids
  · intro d within
    obtain ⟨count, canvas, same, taken⟩ := sound.drafts d within
    exact ⟨count, canvas, same, taken.mono ids⟩

theorem Sound.steady (sound : w.Sound) {count : Nat} {canvas : Canvas}
    (taken : Draft.IsTaken w.builder.nodes count canvas) :
    (canvas.layout (w.builder.nodes.take count)).Steady (nodeIds (w.builder.nodes.take count)) where
  ids := rfl
  unwritten n within := sound.unwritten n (List.mem_of_mem_take within)
  coherent := ⟨sound.distinct.sublist ((List.take_sublist _ _).map _), taken.known⟩

end Workshop

namespace Attempt

theorem keeps_attempt (refinement : Refinement) {ids : List String} :
    refinement.attempt.Keeps (Layout.Steady ids) := by
  cases refinement with
  | pack => exact keeps_pack
  | pair facts => exact keeps_pairStates facts
  | refresh => exact keeps_refresh
  | fit => exact keeps_fit

end Attempt

namespace Workshop

variable {w : Workshop}

/-- A refiner gives its nodes back to the builder and its edges to its own layout alone. -/
theorem step_refine {index count : Nat} {canvas : Canvas} (refinement : Refinement)
    (found : w.drafts[index]? = some (.shared count canvas)) :
    w.step (.refine index refinement) =
      let l := refinement.attempt.leaves (canvas.layout (w.builder.nodes.take count))
      { builder := { w.builder with nodes := l.nodes ++ w.builder.nodes.drop count }
        drafts := w.drafts.set index (.shared count (.ofLayout l)) } := by
  simp only [step, found, session, Session.revise, Session.layout?, Attempt.leaves]
  cases refinement.attempt.run (canvas.layout (w.builder.nodes.take count)) <;> rfl

theorem Sound.refine (sound : w.Sound) (index : Nat) (refinement : Refinement) :
    (w.step (.refine index refinement)).Sound := by
  cases found : w.drafts[index]? with
  | none =>
    rw [step, found]
    exact sound
  | some d =>
    obtain ⟨count, canvas, rfl, taken⟩ := sound.drafts d (List.mem_of_getElem? found)
    have steady := Attempt.keeps_attempt refinement _ (sound.steady taken)
    rw [step_refine refinement found]
    dsimp only
    set l := refinement.attempt.leaves (canvas.layout (w.builder.nodes.take count))
    have ids : nodeIds (l.nodes ++ w.builder.nodes.drop count) = nodeIds w.builder.nodes := by
      rw [nodeIds_append, steady.ids, ← nodeIds_append, List.take_append_drop]
    have longer : nodeIds w.builder.nodes <+: nodeIds (l.nodes ++ w.builder.nodes.drop count) :=
      ids ▸ List.prefix_rfl
    refine ⟨ids ▸ sound.distinct, ?_, fun e within => (sound.known e within).mono longer, ?_⟩
    · intro n within
      rcases List.mem_append.mp within with moved | kept
      · exact steady.unwritten n moved
      · exact sound.unwritten n (List.mem_of_mem_drop kept)
    · intro d within
      rcases List.mem_or_eq_of_mem_set within with old | rfl
      · obtain ⟨others, canvas', same, taken'⟩ := sound.drafts d old
        exact ⟨others, canvas', same, taken'.mono longer⟩
      · have again : Draft.IsTaken (l.nodes ++ w.builder.nodes.drop count) count canvas :=
          taken.mono longer
        refine ⟨count, _, rfl, again.short, fun e drawn => ?_⟩
        refine (steady.coherent.known e drawn).congr ?_
        rw [steady.ids, nodeIds_take, ids, nodeIds_take]

theorem edges_refine (sound : w.Sound) {index : Nat} {refinement : Refinement} :
    (w.step (.refine index refinement)).builder.edges = w.builder.edges := by
  cases found : w.drafts[index]? with
  | none => rw [step, found]
  | some d =>
    obtain ⟨count, canvas, rfl, -⟩ := sound.drafts d (List.mem_of_getElem? found)
    rw [step_refine refinement found]

theorem step_addEdge_cases (w : Workshop) (id : Json) (source target : Option String)
    (kind label : Json) :
    w.step (.addEdge id source target kind label) = w ∨
      ∃ wire : Wire, wire.source ∈ w.builder.nodes ∧ wire.target ∈ w.builder.nodes ∧
        w.step (.addEdge id source target kind label) =
          { w with builder := w.builder.addWire wire } := by
  have held {name : Option String} {n : Node} (found : name.bind w.builder.node? = some n) :
      n ∈ w.builder.nodes := by
    obtain ⟨id, -, found⟩ := Option.bind_eq_some_iff.mp found
    exact Builder.mem_of_node? found
  simp only [step, Session.addEdge, session]
  cases asked : w.builder.edgeRequest
      ⟨id, source.bind w.builder.node?, target.bind w.builder.node?, kind, label⟩ with
  | error fault => exact .inl rfl
  | ok added =>
    rcases Builder.edgeRequest_cases asked with same | ⟨wire, left, right, drawn⟩
    · left
      change { w with builder := added.1 } = w
      rw [same]
    · refine .inr ⟨wire, held left, held right, ?_⟩
      change { w with builder := added.1 } = _
      rw [drawn]

theorem Sound.addWire (sound : w.Sound) {wire : Wire} (leaves : wire.source ∈ w.builder.nodes)
    (enters : wire.target ∈ w.builder.nodes) :
    Sound { w with builder := w.builder.addWire wire } := by
  have nodes := Builder.nodes_addWire w.builder wire
  refine ⟨nodes ▸ sound.distinct, nodes ▸ sound.unwritten, fun e within => ?_, nodes ▸ sound.drafts⟩
  rw [nodes]
  rcases Builder.wire_of_mem_addWire within with old | rfl
  · exact sound.known e old
  · exact (Edge.between_isAnchored leaves enters wire.id wire.kind wire.label).isKnown

theorem Sound.step (sound : w.Sound) (act : Act) : (w.step act).Sound := by
  cases act with
  | addNode n unwritten => exact sound.of_grows (w.builder.grows_addNode unwritten)
  | stackColumn r => exact sound.of_grows (w.builder.grows_stackRequest r)
  | addEdge id source target kind label =>
    rcases w.step_addEdge_cases id source target kind label with same | ⟨wire, left, right, same⟩
    · rwa [same]
    · rw [same]
      exact sound.addWire left right
  | takeLayout =>
    rw [Workshop.step, sound.take_eq]
    refine ⟨sound.distinct, sound.unwritten, sound.known, fun d within => ?_⟩
    rcases List.mem_append.mp within with old | new
    · exact sound.drafts d old
    · refine ⟨_, _, List.mem_singleton.mp new, ?_⟩
      rw [Builder.nodes_toLayout]
      refine ⟨le_rfl, fun e drawn => ?_⟩
      change e ∈ w.builder.toLayout.edges at drawn
      change e.IsKnown (w.builder.nodes.take w.builder.nodes.length)
      rw [Builder.edges_toLayout] at drawn
      rw [List.take_length]
      exact sound.known e drawn
  | refine index refinement => exact sound.refine index refinement

theorem Sound.run (sound : w.Sound) (acts : List Act) : (w.run acts).Sound := by
  induction acts generalizing w with
  | nil => exact sound
  | cons act rest ih => exact ih (sound.step act)

theorem edges_step (sound : w.Sound) (act : Act) :
    (w.step act).builder.edges = w.builder.edges ∨
      ∃ source target e, w.Draws act source target e := by
  cases act with
  | addNode n unwritten => exact .inl (w.builder.grows_addNode unwritten).edges
  | stackColumn r => exact .inl (w.builder.grows_stackRequest r).edges
  | takeLayout =>
    left
    rw [Workshop.step, sound.take_eq]
  | refine index refinement => exact .inl (edges_refine sound)
  | addEdge id source target kind label =>
    rcases w.step_addEdge_cases id source target kind label with same | ⟨wire, left, right, same⟩
    · exact .inl (by rw [same])
    · by_cases accepted : w.builder.accepts wire.id wire.source wire.target
      · refine .inr ⟨wire.source, wire.target, wire.edge, left, right, rfl, ?_⟩
        rw [same, Builder.addWire_eq, if_pos accepted]
      · exact .inl (by rw [same, Builder.addWire_eq, if_neg accepted])

theorem run_append (w : Workshop) (first second : List Act) :
    w.run (first ++ second) = (w.run first).run second :=
  List.foldl_append

theorem mem_edges_run (columns : Columns) (acts : List Act) {e : Edge} :
    e ∈ ((start columns).run acts).builder.edges ↔ ∃ before act after source target,
      acts = before ++ act :: after ∧ ((start columns).run before).Draws act source target e := by
  -- From the end, since the last step sees what all steps before it have drawn.
  induction acts using List.reverseRecOn with
  | nil => simp [run, start]
  | append_singleton acts last ih =>
    have sound := (sound_start columns).run acts
    rw [run_append]
    change e ∈ (((start columns).run acts).step last).builder.edges ↔ _
    constructor
    · intro within
      have earlier (old : e ∈ ((start columns).run acts).builder.edges) :
          ∃ before act after source target, acts ++ [last] = before ++ act :: after ∧
            ((start columns).run before).Draws act source target e := by
        obtain ⟨before, act, after, source, target, rfl, drawn⟩ := ih.mp old
        exact ⟨before, act, after ++ [last], source, target, by simp, drawn⟩
      rcases edges_step sound last with same | ⟨source, target, new, drawn⟩
      · exact earlier (same ▸ within)
      · rw [drawn.added] at within
        rcases List.mem_append.mp within with old | added
        · exact earlier old
        · rw [List.mem_singleton.mp added]
          exact ⟨acts, last, [], source, target, rfl, drawn⟩
    · rintro ⟨before, act, after, source, target, split, drawn⟩
      have kept : ((start columns).run acts).builder.edges ⊆
          (((start columns).run acts).step last).builder.edges := by
        rcases edges_step sound last with same | ⟨_, _, new, drawn⟩
        · exact same ▸ List.Subset.refl _
        · rw [drawn.added]
          exact List.subset_append_left _ _
      rcases List.eq_nil_or_concat after with rfl | ⟨others, final, rfl⟩
      · obtain ⟨rfl, same⟩ := List.append_inj' split rfl
        cases same
        rw [drawn.added]
        exact List.mem_append_right _ (List.mem_singleton_self e)
      · have parts : acts = before ++ act :: others := by
          have longer : acts ++ [last] = (before ++ act :: others) ++ [final] := by
            simpa using split
          exact (List.append_inj' longer rfl).1
        exact kept (ih.mpr ⟨before, act, others, source, target, parts, drawn⟩)

/-! Without a refiner that moves nodes, all of them stay where they are. -/

theorem nodes_leaves_of_still {refinement : Refinement} (still : refinement.moves = false)
    {l : Layout} (unwritten : l.Unwritten) : (refinement.attempt.leaves l).nodes = l.nodes := by
  cases refinement with
  | pack | pair _ => cases still
  | refresh =>
    rw [Refinement.attempt, Attempt.leaves_of_ok (Attempt.run_refresh unwritten)]
    rfl
  | fit =>
    rw [Refinement.attempt, Attempt.leaves_of_ok (Attempt.run_fit unwritten)]
    exact l.nodes_fit

theorem prefix_step (sound : w.Sound) {act : Act} (still : act.moves = false) :
    w.builder.nodes <+: (w.step act).builder.nodes := by
  have grown {b : Builder} (grows : w.builder.Grows b) : w.builder.nodes <+: b.nodes := by
    obtain ⟨more, longer, -⟩ := grows.nodes
    exact ⟨more, longer.symm⟩
  have unmoved {nodes : List Node} (same : nodes = w.builder.nodes) : w.builder.nodes <+: nodes :=
    same ▸ List.prefix_rfl
  cases act with
  | addNode n unwritten => exact grown (w.builder.grows_addNode unwritten)
  | stackColumn r => exact grown (w.builder.grows_stackRequest r)
  | addEdge id source target kind label =>
    rcases w.step_addEdge_cases id source target kind label with same | ⟨wire, -, -, same⟩
    · exact unmoved (by rw [same])
    · exact unmoved (by rw [same, Builder.nodes_addWire])
  | takeLayout => exact unmoved (by rw [step, sound.take_eq])
  | refine index refinement =>
    cases found : w.drafts[index]? with
    | none => exact unmoved (by rw [step, found])
    | some d =>
      obtain ⟨count, canvas, rfl, taken⟩ := sound.drafts d (List.mem_of_getElem? found)
      have same := nodes_leaves_of_still still (sound.steady taken).unwritten
      refine unmoved ?_
      rw [step_refine refinement found]
      dsimp only
      rw [same]
      exact List.take_append_drop count w.builder.nodes

theorem prefix_run (sound : w.Sound) {acts : List Act} (still : ∀ act ∈ acts, act.moves = false) :
    w.builder.nodes <+: (w.run acts).builder.nodes := by
  induction acts generalizing w with
  | nil => exact List.prefix_rfl
  | cons act rest ih =>
    obtain ⟨first, others⟩ := List.forall_mem_cons.mp still
    exact (prefix_step sound first).trans (ih (sound.step act) others)

/-- No step moves nodes and draws an edge of the builder at once. -/
theorem moves_of_draws (sound : w.Sound) {act : Act} {source target : Node} {e : Edge}
    (drawn : w.Draws act source target e) : act.moves = false := by
  cases act with
  | refine index refinement =>
    have same := drawn.added
    rw [edges_refine sound] at same
    simp at same
  | _ => rfl

theorem layouts_takeLayout (sound : w.Sound) :
    (w.step .takeLayout).layouts = w.layouts ++ [w.builder.toLayout] := by
  have nodes : w.builder.nodes.take w.builder.toLayout.nodes.length = w.builder.toLayout.nodes := by
    rw [Builder.nodes_toLayout, List.take_length]
  rw [step, sound.take_eq, layouts, List.filterMap_append]
  congr 1
  change [(Canvas.ofLayout _).layout (w.builder.nodes.take _)] = _
  rw [nodes, Canvas.layout_ofLayout]

end Workshop

structure Layout.Meets (l : Layout) (source target : Node) : Prop where
  leaves : ∃ n ∈ l.nodes, n.outlet = source.outlet
  enters : ∃ n ∈ l.nodes, n.inlet = target.inlet

namespace Workshop

/-- What is taken is anchored exactly if the ends of its edges stand where they stood. -/
theorem toLayout_anchored_iff (columns : Columns) (acts : List Act) :
    ((start columns).run acts).builder.toLayout.Anchored ↔
      ∀ before act after source target e, acts = before ++ act :: after →
        ((start columns).run before).Draws act source target e →
          ((start columns).run acts).builder.toLayout.Meets source target := by
  have sound := (sound_start columns).run acts
  constructor
  · intro anchored before act after source target e split drawn
    have within := (mem_edges_run columns acts).mpr ⟨before, act, after, source, target, split, drawn⟩
    rw [← Builder.edges_toLayout] at within
    obtain ⟨⟨m, left, leaves⟩, n, right, enters⟩ := anchored.ends e within
    rw [drawn.drawn] at leaves enters
    exact ⟨⟨m, left, leaves.symm⟩, n, right, enters.symm⟩
  · intro still
    refine ⟨sound.coherent.distinct, fun e within => ?_⟩
    rw [Builder.edges_toLayout] at within
    obtain ⟨before, act, after, source, target, split, drawn⟩ := (mem_edges_run columns acts).mp within
    obtain ⟨⟨m, left, leaves⟩, n, right, enters⟩ := still before act after source target e split drawn
    rw [drawn.drawn]
    exact ⟨⟨m, left, leaves.symm⟩, n, right, enters.symm⟩

theorem meets_of_still (columns : Columns) {before after : List Act} {act : Act}
    {source target : Node} {e : Edge}
    (drawn : ((start columns).run before).Draws act source target e)
    (still : ∀ later ∈ after, later.moves = false) :
    ((start columns).run (before ++ act :: after)).builder.toLayout.Meets source target := by
  have sound := (sound_start columns).run before
  have kept : ((start columns).run before).builder.nodes <+:
      ((start columns).run (before ++ act :: after)).builder.nodes := by
    rw [run_append]
    exact prefix_run sound (List.forall_mem_cons.mpr ⟨moves_of_draws sound drawn, still⟩)
  constructor
  · exact ⟨source, by rw [Builder.nodes_toLayout]; exact kept.subset drawn.leaves, rfl⟩
  · exact ⟨target, by rw [Builder.nodes_toLayout]; exact kept.subset drawn.enters, rfl⟩

/-- Whatever was done to a builder and to the layouts taken from it, a layout that is taken has the
nodes where they stand now and the edges as they were drawn when they were added. It is anchored
exactly if the ends of the edges still stand where they stood then, for which it is enough that no
later step packs or pairs a layout. Drawing its edges again anchors it in any case. -/
theorem takeLayout_anchored_iff (columns : Columns) (acts : List Act) :
    ∃ l, ((start columns).run (acts ++ [.takeLayout])).layouts =
        ((start columns).run acts).layouts ++ [l] ∧
      l.nodes = ((start columns).run acts).builder.nodes ∧
      (∀ e, e ∈ l.edges ↔ ∃ before act after source target,
        acts = before ++ act :: after ∧ ((start columns).run before).Draws act source target e) ∧
      (l.Anchored ↔ ∀ before act after source target e, acts = before ++ act :: after →
        ((start columns).run before).Draws act source target e → l.Meets source target) ∧
      ((∀ before act after source target e, acts = before ++ act :: after →
        ((start columns).run before).Draws act source target e →
          ∀ later ∈ after, later.moves = false) → l.Anchored) ∧
      l.refresh.Anchored := by
  have sound := (sound_start columns).run acts
  have anchored_iff := toLayout_anchored_iff columns acts
  refine ⟨((start columns).run acts).builder.toLayout, ?_, Builder.nodes_toLayout _, fun e => ?_,
    anchored_iff, fun still => ?_, sound.coherent.refresh⟩
  · rw [run_append]
    exact layouts_takeLayout sound
  · rw [Builder.edges_toLayout]
    exact mem_edges_run columns acts
  · refine anchored_iff.mpr fun before act after source target e split drawn => ?_
    have later := still before act after source target e split drawn
    rw [split]
    exact meets_of_still columns drawn later

def nestedElement (id : String) (depth : Nat) (x y : Nat) (parent : Json) : Node where
  id := id
  label := id
  kind := .element
  x := (x : Nat)
  y := (y : Nat)
  info := ⟨[("depth", .int depth), ("parent_id", parent)]⟩

/-- A child that stands below its parent is packed beside it after a first layout was taken. -/
def packedBetween : List Act := [
  .addNode (nestedElement "jsx-1" 0 960 80 .null) rfl,
  .addNode (nestedElement "jsx-2" 1 1120 128 (.text "jsx-1")) rfl,
  .addEdge (.text "jsx-tree-jsx-1-jsx-2") (some "jsx-1") (some "jsx-2") (.text "flow") .null,
  .takeLayout,
  .refine 0 .pack]

/-- The layout that is taken then has its edge end where the child stood before. -/
theorem packedBetween_unanchored :
    ∃ l, ((start .standard).run (packedBetween ++ [.takeLayout])).layouts.getLast? = some l ∧
      ¬ l.Anchored := by
  obtain ⟨l, taken, e, within, apart⟩ :
      ∃ l ∈ ((start .standard).run (packedBetween ++ [.takeLayout])).layouts.getLast?,
        ∃ e ∈ l.edges, ∀ n ∈ l.nodes, e.target ≠ n.inlet := by
    decide +kernel
  refine ⟨l, taken, fun anchored => ?_⟩
  obtain ⟨n, held, same⟩ := (anchored.ends e within).target
  exact apart n held same

end Workshop

end RenderFlow.Graph
