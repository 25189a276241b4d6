import RenderFlow.Proofs.Graph.Kinds
import RenderFlow.Proofs.Graph.Settling

/-!
What edges say, wherever their ends stand. A builder never has two edges of one id, each edge was asked
for, and a wire between held nodes leaves an edge with its id (`Builder.exists_edge_addWires`). The
refiners only move nodes and link state nodes, so these are the edges of the finished layout, and
its links: `Layout.links_ofFacts`.
-/
namespace RenderFlow.Graph

/-- An edge without the places of its ends. -/
structure Tie where
  id : String
  source : String
  target : String
  kind : EdgeKind
  label : Option String
deriving DecidableEq, Repr

def Edge.tie (e : Edge) : Tie :=
  ⟨e.id, e.source.nodeId, e.target.nodeId, e.kind, e.label⟩

def Wire.tie (w : Wire) : Tie :=
  ⟨w.id, w.source.id, w.target.id, w.kind, w.label⟩

theorem id_of_lastNode? {nodes : List Node} {id : String} {n : Node}
    (found : lastNode? nodes id = some n) : n.id = id := by
  simpa using List.find?_some found

theorem Edge.tie_refreshed (nodes : List Node) (e : Edge) : (e.refreshed nodes).tie = e.tie := by
  unfold Edge.refreshed
  split
  · rename_i source target leaves enters
    simp only [Edge.tie, Edge.between, Node.outlet, Node.inlet, id_of_lastNode? leaves,
      id_of_lastNode? enters]
  · rfl

namespace Builder

def withEdge (b : Builder) (e : Edge) : Builder :=
  { b with edges := b.edges ++ [e], edgeIds := e.id :: b.edgeIds }

/-- The builder remembers the ids of its edges, and no two of them share one. -/
structure Recorded (b : Builder) : Prop where
  ids : ∀ id, id ∈ b.edgeIds ↔ id ∈ b.edges.map (·.id)
  distinct : (b.edges.map (·.id)).Nodup

theorem Recorded.withEdge {b : Builder} (recorded : b.Recorded) {e : Edge}
    (fresh : e.id ∉ b.edgeIds) : (b.withEdge e).Recorded := by
  have new : e.id ∉ b.edges.map (·.id) := fun old => fresh ((recorded.ids e.id).mpr old)
  constructor
  · intro id
    simp only [Builder.withEdge, List.mem_cons, List.map_append, List.mem_append, recorded.ids id,
      List.map_cons, List.map_nil, List.not_mem_nil, or_false]
    exact Or.comm
  · rw [Builder.withEdge, List.map_append]
    simpa using recorded.distinct.concat new

theorem recorded_addWire {b : Builder} (recorded : b.Recorded) (w : Wire) :
    (b.addWire w).Recorded := by
  rw [addWire_eq]
  split
  · rename_i accepted
    simp only [accepts, Bool.and_eq_true, Bool.not_eq_true', List.contains_eq_mem,
      decide_eq_false_iff_not] at accepted
    exact recorded.withEdge (e := w.edge) accepted.1.1
  · exact recorded

theorem recorded_addWires {b : Builder} (recorded : b.Recorded) (wires : List Wire) :
    (b.addWires wires).Recorded := by
  induction wires generalizing b with
  | nil => exact recorded
  | cons w rest ih => exact ih (recorded_addWire recorded w)

theorem prefix_addWire (b : Builder) (w : Wire) : b.edges <+: (b.addWire w).edges := by
  rw [addWire_eq]
  split
  · exact List.prefix_append _ _
  · exact List.prefix_rfl

theorem prefix_addWires (b : Builder) (wires : List Wire) : b.edges <+: (b.addWires wires).edges := by
  induction wires generalizing b with
  | nil => exact List.prefix_rfl
  | cons w rest ih => exact (prefix_addWire b w).trans (ih (b.addWire w))

theorem wire_of_mem_addWire {b : Builder} {w : Wire} {e : Edge} (within : e ∈ (b.addWire w).edges) :
    e ∈ b.edges ∨ e = w.edge := by
  rw [addWire_eq] at within
  split at within
  · exact (List.mem_append.mp within).imp id List.mem_singleton.mp
  · exact .inl within

theorem wire_of_mem_addWires {b : Builder} {wires : List Wire} {e : Edge}
    (within : e ∈ (b.addWires wires).edges) : e ∈ b.edges ∨ ∃ w ∈ wires, e = w.edge := by
  induction wires generalizing b with
  | nil => exact .inl within
  | cons w rest ih =>
    rcases ih within with old | ⟨later, asked, rfl⟩
    · rcases wire_of_mem_addWire old with older | rfl
      · exact .inl older
      · exact .inr ⟨w, List.mem_cons_self, rfl⟩
    · exact .inr ⟨later, List.mem_cons_of_mem w asked, rfl⟩

theorem exists_edge_addWire {b : Builder} (recorded : b.Recorded) {w : Wire}
    (held : w.source ∈ b.nodes ∧ w.target ∈ b.nodes) : ∃ e ∈ (b.addWire w).edges, e.id = w.id := by
  have known {n : Node} (within : n ∈ b.nodes) : b.hasNode n.id :=
    hasNode_iff.mpr (mem_nodeIds.mpr ⟨n, within, rfl⟩)
  rw [addWire_eq]
  by_cases old : w.id ∈ b.edgeIds
  · have refused : b.accepts w.id w.source w.target = false := by simp [accepts, old]
    obtain ⟨e, within, named⟩ := List.mem_map.mp ((recorded.ids w.id).mp old)
    rw [refused]
    exact ⟨e, within, named⟩
  · have accepted : b.accepts w.id w.source w.target := by
      simp [accepts, old, known held.1, known held.2]
    rw [if_pos accepted]
    exact ⟨w.edge, List.mem_append_right _ (List.mem_singleton_self _), rfl⟩

theorem exists_edge_addWires {b : Builder} (recorded : b.Recorded) {wires : List Wire}
    (held : ∀ w ∈ wires, w.source ∈ b.nodes ∧ w.target ∈ b.nodes) :
    ∀ w ∈ wires, ∃ e ∈ (b.addWires wires).edges, e.id = w.id := by
  induction wires generalizing b with
  | nil => simp
  | cons first rest ih =>
    obtain ⟨here, others⟩ := List.forall_mem_cons.mp held
    intro w within
    rcases List.mem_cons.mp within with rfl | later
    · obtain ⟨e, drawn, named⟩ := exists_edge_addWire recorded here
      exact ⟨e, (prefix_addWires _ rest).subset drawn, named⟩
    · refine ih (recorded_addWire recorded first) ?_ w later
      rw [nodes_addWire]
      exact others

end Builder

/-- What no move changes about the nodes. -/
def census (nodes : List Node) : List (String × NodeKind) :=
  nodes.map fun n => (n.id, n.kind)

theorem mem_census {nodes : List Node} {n : Node} (within : n ∈ nodes) :
    (n.id, n.kind) ∈ census nodes :=
  List.mem_map_of_mem within

theorem exists_of_mem_census {nodes : List Node} {id : String} {kind : NodeKind}
    (counted : (id, kind) ∈ census nodes) : ∃ n ∈ nodes, n.id = id ∧ n.kind = kind := by
  obtain ⟨n, within, same⟩ := List.mem_map.mp counted
  exact ⟨n, within, congrArg Prod.fst same, congrArg Prod.snd same⟩

namespace Tie

def link (value setter : String) : Tie :=
  ⟨"link-" ++ value ++ "-" ++ setter, value, setter, .link, none⟩

theorem id_link (value setter : String) :
    (link value setter).id = wireId ["link", value, setter] := by
  simp [link, wireId, String.append_assoc]

def IsLink (nodes : List (String × NodeKind)) (t : Tie) : Prop :=
  ∃ value setter, (value, NodeKind.state) ∈ nodes ∧ (setter, NodeKind.state) ∈ nodes ∧
    t = link value setter

end Tie

namespace Layout

def ties (l : Layout) : List Tie :=
  l.edges.map Edge.tie

theorem ids_ties (l : Layout) : l.ties.map (·.id) = l.edges.map (·.id) :=
  List.map_map

@[simp] theorem ties_refresh (l : Layout) : l.refresh.ties = l.ties := by
  simp only [ties, refresh, List.map_map]
  exact List.map_congr_left fun e _ => e.tie_refreshed l.nodes

@[simp] theorem ties_fit (l : Layout) : l.fit.ties = l.ties := by
  rw [ties, edges_fit, ties]

/-- From one layout to the other nodes were moved and state nodes linked, and nothing else. -/
structure Links (l m : Layout) : Prop where
  nodes : census m.nodes = census l.nodes
  kept : l.ties <+: m.ties
  added : ∀ t ∈ m.ties, t ∈ l.ties ∨ t.IsLink (census l.nodes)
  distinct : (l.ties.map (·.id)).Nodup → (m.ties.map (·.id)).Nodup

theorem Links.of_ties_eq {l m : Layout} (nodes : census m.nodes = census l.nodes)
    (ties : m.ties = l.ties) : l.Links m where
  nodes := nodes
  kept := ties ▸ List.prefix_rfl
  added _ within := .inl (ties ▸ within)
  distinct nodup := ties ▸ nodup

theorem Links.of_link {l m : Layout} {value setter : String}
    (nodes : census m.nodes = census l.nodes) (left : (value, NodeKind.state) ∈ census l.nodes)
    (right : (setter, NodeKind.state) ∈ census l.nodes)
    (ties : m.ties = l.ties ++ [.link value setter])
    (fresh : (Tie.link value setter).id ∉ l.ties.map (·.id)) : l.Links m where
  nodes := nodes
  kept := ties ▸ List.prefix_append _ _
  added t within := by
    rw [ties] at within
    exact (List.mem_append.mp within).imp id fun new =>
      ⟨value, setter, left, right, List.mem_singleton.mp new⟩
  distinct nodup := by
    rw [ties, List.map_append, List.map_singleton]
    simpa using nodup.concat fresh

theorem Links.trans {k l m : Layout} (first : k.Links l) (second : l.Links m) : k.Links m where
  nodes := second.nodes.trans first.nodes
  kept := first.kept.trans second.kept
  added t within := by
    rcases second.added t within with old | linked
    · exact first.added t old
    · rw [first.nodes] at linked
      exact .inr linked
  distinct nodup := second.distinct (first.distinct nodup)

theorem links_refresh_fit (l : Layout) : l.Links l.refresh.fit :=
  .of_ties_eq (by rw [nodes_fit]; rfl) (by rw [ties_fit, ties_refresh])

theorem links_pack (l : Layout) : l.Links l.pack := by
  have places (places : Hierarchy.Places) (nodes : List Node) :
      census (places.foldl (placeElement l.columns.elements) nodes) = census nodes := by
    induction places generalizing nodes with
    | nil => rfl
    | cons place rest ih =>
      rw [List.foldl_cons, ih]
      exact map_updateLast (f := Node.atRow l.columns.elements place.2) (fun _ => rfl) nodes
  unfold pack
  dsimp only
  split
  · exact .of_ties_eq rfl rfl
  · split
    · rename_i rows _
      have moved : l.Links
          { l with nodes := rows.foldl (placeElement l.columns.elements) l.nodes } :=
        .of_ties_eq (places rows l.nodes) rfl
      exact moved.trans (links_refresh_fit _)
    · exact .of_ties_eq rfl rfl

theorem links_placeState (l : Layout) (hook : String) (x : Binary64) (row : Nat) (slot : String) :
    l.Links (l.placeState hook x row slot) :=
  .of_ties_eq (map_updateLast (f := Node.inSlot x row slot) (fun _ => rfl) l.nodes) rfl

theorem state_of_stateNode? {l : Layout} {hook : String} {n : Node}
    (found : l.stateNode? hook = some n) : (n.id, NodeKind.state) ∈ census l.nodes := by
  have holds := List.find?_some found
  rw [Node.holdsHook, Bool.and_eq_true, beq_iff_eq] at holds
  rw [← holds.1]
  exact mem_census (mem_of_stateNode? found)

theorem links_linkStates (l : Layout) (value setter : String) :
    l.Links (l.linkStates value setter) := by
  unfold linkStates
  split
  · rename_i source target left right
    dsimp only
    split
    · exact .of_ties_eq rfl rfl
    · rename_i unknown
      have fresh : (Tie.link source.id target.id).id ∉ l.ties.map (·.id) := by
        intro old
        rw [ids_ties] at old
        obtain ⟨e, within, named⟩ := List.mem_map.mp old
        exact unknown (List.any_eq_true.mpr ⟨e, within, beq_iff_eq.mpr named⟩)
      exact .of_link rfl (state_of_stateNode? left) (state_of_stateNode? right)
        (by simp only [ties, List.map_append]; rfl) fresh
  · exact .of_ties_eq rfl rfl

theorem links_placeRow (l : Layout) (row : Nat) (r : StateRow) : l.Links (l.placeRow row r) := by
  cases r with
  | pair value setter =>
    exact ((links_placeState l _ _ _ _).trans (links_placeState _ _ _ _ _)).trans
      (links_linkStates _ value setter)
  | value hook => exact links_placeState l _ _ _ _
  | function hook => exact links_placeState l _ _ _ _

theorem links_placeRows (l : Layout) (row : Nat) (rows : List StateRow) :
    l.Links (l.placeRows row rows) := by
  induction rows generalizing l row with
  | nil => exact .of_ties_eq rfl rfl
  | cons r rest ih => exact (links_placeRow l row r).trans (ih _ (row + 1))

theorem links_pairStates (l : Layout) (facts : Facts) : l.Links (l.pairStates facts) := by
  unfold pairStates
  split
  · exact (links_placeRows l 0 _).trans (links_refresh_fit _)
  · exact .of_ties_eq rfl rfl

/-- The finished layout shows what the builder drew, and links. -/
theorem links_ofFacts (f : Facts) : (unmoved f).Links (ofFacts f) :=
  (links_pack _).trans (links_pairStates _ f)

end Layout

end RenderFlow.Graph
