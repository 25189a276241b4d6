import RenderFlow.Proofs.Graph.Moves

/-!
Edges that meet their boxes. A layout is coherent when its edges run between nodes that it has, and
drawing the edges of a coherent layout again anchors all of them: `Coherent.refresh`. Both refiners
keep a layout anchored, whichever way they end: `Anchored.pack` and `Anchored.pairStates`.
-/
namespace RenderFlow.Graph

/-- Both ends of the edge stand at nodes. -/
structure Edge.IsAnchored (nodes : List Node) (e : Edge) : Prop where
  source : ∃ n ∈ nodes, e.source = n.outlet
  target : ∃ n ∈ nodes, e.target = n.inlet

theorem Edge.between_isAnchored {nodes : List Node} {source target : Node}
    (left : source ∈ nodes) (right : target ∈ nodes) (id : String) (kind : EdgeKind)
    (label : Option String) : (Edge.between id source target kind label).IsAnchored nodes :=
  ⟨⟨source, left, rfl⟩, ⟨target, right, rfl⟩⟩

structure Edge.IsKnown (nodes : List Node) (e : Edge) : Prop where
  source : e.source.nodeId ∈ nodeIds nodes
  target : e.target.nodeId ∈ nodeIds nodes

theorem Edge.IsAnchored.isKnown {nodes : List Node} {e : Edge} (anchored : e.IsAnchored nodes) :
    e.IsKnown nodes := by
  obtain ⟨⟨source, left, leaves⟩, ⟨target, right, enters⟩⟩ := anchored
  exact ⟨mem_nodeIds.mpr ⟨source, left, by rw [leaves]; rfl⟩,
    mem_nodeIds.mpr ⟨target, right, by rw [enters]; rfl⟩⟩

theorem Edge.IsKnown.congr {nodes others : List Node} {e : Edge} (known : e.IsKnown nodes)
    (same : nodeIds others = nodeIds nodes) : e.IsKnown others :=
  ⟨same ▸ known.source, same ▸ known.target⟩

theorem Edge.IsKnown.mono {nodes others : List Node} {e : Edge} (known : e.IsKnown nodes)
    (longer : nodeIds nodes <+: nodeIds others) : e.IsKnown others :=
  ⟨longer.subset known.source, longer.subset known.target⟩

theorem Edge.IsKnown.refreshed {nodes : List Node} {e : Edge} (known : e.IsKnown nodes) :
    (e.refreshed nodes).IsAnchored nodes := by
  obtain ⟨source, left, _, leaves⟩ := exists_lastNode? known.source
  obtain ⟨target, right, _, enters⟩ := exists_lastNode? known.target
  unfold Edge.refreshed
  rw [leaves, enters]
  exact between_isAnchored left right e.id e.kind e.label

namespace Layout

/-- Ids tell the nodes apart, and every edge runs between two of them. -/
structure Coherent (l : Layout) : Prop where
  distinct : (nodeIds l.nodes).Nodup
  known : ∀ e ∈ l.edges, e.IsKnown l.nodes

/-- Ids tell the nodes apart, and every edge leaves the right middle of one box and enters the left
middle of another. -/
structure Anchored (l : Layout) : Prop where
  distinct : (nodeIds l.nodes).Nodup
  ends : ∀ e ∈ l.edges, e.IsAnchored l.nodes

theorem Anchored.coherent {l : Layout} (anchored : l.Anchored) : l.Coherent :=
  ⟨anchored.distinct, fun e within => (anchored.ends e within).isKnown⟩

theorem Anchored.source_eq {l : Layout} (anchored : l.Anchored) {e : Edge} (within : e ∈ l.edges)
    {n : Node} (held : n ∈ l.nodes) (named : n.id = e.source.nodeId) : e.source = n.outlet := by
  obtain ⟨m, other, leaves⟩ := (anchored.ends e within).source
  have same : m.id = n.id := by rw [named, leaves]; rfl
  rw [leaves, List.inj_on_of_nodup_map anchored.distinct other held same]

theorem Anchored.target_eq {l : Layout} (anchored : l.Anchored) {e : Edge} (within : e ∈ l.edges)
    {n : Node} (held : n ∈ l.nodes) (named : n.id = e.target.nodeId) : e.target = n.inlet := by
  obtain ⟨m, other, enters⟩ := (anchored.ends e within).target
  have same : m.id = n.id := by rw [named, enters]; rfl
  rw [enters, List.inj_on_of_nodup_map anchored.distinct other held same]

theorem Coherent.refresh {l : Layout} (coherent : l.Coherent) : l.refresh.Anchored := by
  refine ⟨coherent.distinct, ?_⟩
  intro e within
  obtain ⟨stale, held, rfl⟩ := List.mem_map.mp within
  exact (coherent.known stale held).refreshed

theorem foldl_growFor (nodes : List Node) (l : Layout) :
    nodes.foldl growFor l =
      { l with
        width := (nodes.foldl growFor l).width
        height := (nodes.foldl growFor l).height } := by
  induction nodes generalizing l with
  | nil => rfl
  | cons n rest ih =>
    rw [List.foldl_cons, ih]
    rfl

@[simp] theorem nodes_fit (l : Layout) : l.fit.nodes = l.nodes := by
  rw [fit, foldl_growFor]

@[simp] theorem edges_fit (l : Layout) : l.fit.edges = l.edges := by
  rw [fit, foldl_growFor]

@[simp] theorem columns_fit (l : Layout) : l.fit.columns = l.columns := by
  rw [fit, foldl_growFor]

theorem Anchored.fit {l : Layout} (anchored : l.Anchored) : l.fit.Anchored := by
  constructor
  · rw [nodes_fit]
    exact anchored.distinct
  · rw [nodes_fit, edges_fit]
    exact anchored.ends

theorem Coherent.withNodes {l : Layout} (coherent : l.Coherent) {nodes : List Node}
    (same : nodeIds nodes = nodeIds l.nodes) : Coherent { l with nodes := nodes } :=
  ⟨same ▸ coherent.distinct, fun e within => (coherent.known e within).congr same⟩

theorem Anchored.pack {l : Layout} (anchored : l.Anchored) : l.pack.Anchored := by
  unfold Layout.pack
  dsimp only
  split
  · exact anchored
  · split
    · rename_i places _
      have same := nodeIds_foldl_placeElement l.columns.elements places l.nodes
      exact (anchored.coherent.withNodes same).refresh.fit
    · exact anchored

theorem Coherent.placeState {l : Layout} (coherent : l.Coherent) (hook : String) (x : Binary64)
    (row : Nat) (slot : String) : (l.placeState hook x row slot).Coherent :=
  coherent.withNodes (nodeIds_placeState l hook x row slot)

theorem mem_of_stateNode? {l : Layout} {hook : String} {n : Node}
    (found : l.stateNode? hook = some n) : n ∈ l.nodes :=
  List.mem_reverse.mp (List.mem_of_find?_eq_some found)

theorem Coherent.linkStates {l : Layout} (coherent : l.Coherent) (value setter : String) :
    (l.linkStates value setter).Coherent := by
  unfold Layout.linkStates
  split
  · rename_i source target left right
    dsimp only
    split
    · exact coherent
    · refine ⟨coherent.distinct, ?_⟩
      intro e within
      rcases List.mem_append.mp within with held | linked
      · exact coherent.known e held
      · rw [List.mem_singleton.mp linked]
        exact (Edge.between_isAnchored (mem_of_stateNode? left) (mem_of_stateNode? right)
          _ _ _).isKnown
  · exact coherent

theorem Coherent.placeRow {l : Layout} (coherent : l.Coherent) (row : Nat) (r : StateRow) :
    (l.placeRow row r).Coherent := by
  cases r with
  | pair value setter =>
    exact ((coherent.placeState _ _ _ _).placeState _ _ _ _).linkStates value setter
  | value hook => exact coherent.placeState _ _ _ _
  | function hook => exact coherent.placeState _ _ _ _

theorem Coherent.placeRows {l : Layout} (coherent : l.Coherent) (row : Nat)
    (rows : List StateRow) : (l.placeRows row rows).Coherent := by
  induction rows generalizing l row with
  | nil => exact coherent
  | cons r rest ih => exact ih (coherent.placeRow row r) (row + 1)

theorem Anchored.pairStates {l : Layout} (anchored : l.Anchored) (facts : Facts) :
    (l.pairStates facts).Anchored := by
  unfold Layout.pairStates
  split
  · exact (anchored.coherent.placeRows 0 _).refresh.fit
  · exact anchored

end Layout

end RenderFlow.Graph
