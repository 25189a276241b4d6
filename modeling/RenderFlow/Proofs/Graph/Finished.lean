import RenderFlow.Proofs.Graph.Ties

/-!
The edges of the finished layout. Each is a wire or a link between two states, no two have one id, and
every wire has left one with its id. Main statement: the layout of any component is a well-formed
graph whose edges run between nodes of the kinds that theirs allows, `Layout.build_wellFormed`.
-/
namespace RenderFlow

open RenderFlow.Graph

def Facts.wires (f : Facts) : List Wire :=
  Wire.ofFacts (Inventory.ofFacts f) f

theorem Facts.held_of_mem_wires {f : Facts} {w : Wire} (asked : w ∈ f.wires) :
    w.source ∈ (Inventory.ofFacts f).builder.nodes ∧
      w.target ∈ (Inventory.ofFacts f).builder.nodes :=
  (Wire.drawn_of_mem asked).held (Inventory.housed_ofFacts f)

namespace Graph

theorem Builder.recorded_inventory (f : Facts) : (Inventory.ofFacts f).builder.Recorded := by
  rw [Inventory.builder_ofFacts, addNodes_eq]
  exact ⟨fun _ => Iff.rfl, List.nodup_nil⟩

namespace Layout

variable {f : Facts}

theorem edges_unmoved (f : Facts) :
    (unmoved f).edges = ((Inventory.ofFacts f).builder.addWires f.wires).edges :=
  edges_fit _

theorem distinct_edges_ofFacts (f : Facts) : ((ofFacts f).edges.map (·.id)).Nodup := by
  rw [← ids_ties]
  apply (links_ofFacts f).distinct
  rw [ids_ties, edges_unmoved]
  exact (Builder.recorded_addWires (Builder.recorded_inventory f) f.wires).distinct

theorem census_ofFacts (f : Facts) :
    census (ofFacts f).nodes = census (Inventory.ofFacts f).builder.nodes := by
  rw [(links_ofFacts f).nodes, nodes_unmoved]

theorem tie_cases {e : Edge} (within : e ∈ (ofFacts f).edges) :
    (∃ w ∈ f.wires, e.tie = w.tie) ∨
      e.tie.IsLink (census (Inventory.ofFacts f).builder.nodes) := by
  rcases (links_ofFacts f).added e.tie (List.mem_map_of_mem within) with drawn | linked
  · left
    obtain ⟨d, held, same⟩ := List.mem_map.mp drawn
    rw [edges_unmoved] at held
    rcases Builder.wire_of_mem_addWires held with old | ⟨w, asked, rfl⟩
    · rw [Builder.edges_ofFacts_inventory] at old
      cases old
    · exact ⟨w, asked, same.symm⟩
  · right
    rwa [nodes_unmoved] at linked

/-- No wire is lost without another one of its id. -/
theorem exists_edge_of_wire {w : Wire} (asked : w ∈ f.wires) :
    ∃ e ∈ (ofFacts f).edges, e.id = w.id := by
  obtain ⟨d, drawn, named⟩ := Builder.exists_edge_addWires (Builder.recorded_inventory f)
    (fun _ asked => Facts.held_of_mem_wires asked) w asked
  rw [← edges_unmoved] at drawn
  obtain ⟨e, within, same⟩ :=
    List.mem_map.mp ((links_ofFacts f).kept.subset (List.mem_map_of_mem drawn))
  exact ⟨e, within, (congrArg Tie.id same).trans named⟩

theorem exists_kinds {e : Edge} (within : e ∈ (ofFacts f).edges) :
    ∃ a b, (e.source.nodeId, a) ∈ census (Inventory.ofFacts f).builder.nodes ∧
      (e.target.nodeId, b) ∈ census (Inventory.ofFacts f).builder.nodes ∧ e.kind.joins a b := by
  rcases tie_cases within with ⟨w, asked, same⟩ | ⟨value, setter, left, right, same⟩
  · have ⟨source_held, target_held⟩ := Facts.held_of_mem_wires asked
    have source : e.source.nodeId = w.source.id := congrArg Tie.source same
    have target : e.target.nodeId = w.target.id := congrArg Tie.target same
    have kind : e.kind = w.kind := congrArg Tie.kind same
    rw [source, target, kind]
    exact ⟨w.source.kind, w.target.kind, mem_census source_held, mem_census target_held,
      (Wire.drawn_of_mem asked).joins (Inventory.sorted_ofFacts f)⟩
  · have source : e.source.nodeId = value := congrArg Tie.source same
    have target : e.target.nodeId = setter := congrArg Tie.target same
    have kind : e.kind = .link := congrArg Tie.kind same
    rw [source, target, kind]
    exact ⟨.state, .state, left, right, rfl⟩

theorem exists_ends {e : Edge} (within : e ∈ (ofFacts f).edges) :
    ∃ source ∈ (ofFacts f).nodes, ∃ target ∈ (ofFacts f).nodes,
      source.id = e.source.nodeId ∧ target.id = e.target.nodeId ∧
        e.kind.joins source.kind target.kind := by
  obtain ⟨a, b, leaves, enters, joins⟩ := exists_kinds within
  rw [← census_ofFacts] at leaves enters
  obtain ⟨source, drawn, left, rfl⟩ := exists_of_mem_census leaves
  obtain ⟨target, drawn', right, rfl⟩ := exists_of_mem_census enters
  exact ⟨source, drawn, target, drawn', left, right, joins⟩

/-- Whatever a component declares, its layout has no two nodes of one id and no two edges of one id,
and every edge runs between two of the nodes, of kinds between which edges of its kind may run. -/
theorem build_wellFormed (f : Facts) :
    (build (some f) = .error .tooLarge ∧
      ∃ e ∈ f.elements, (Binary64.ofRat (e.depth * 160 : Int)).isFinite = false) ∨
    ∃ l, build (some f) = .ok l ∧ (l.nodes.map (·.id)).Nodup ∧ (l.edges.map (·.id)).Nodup ∧
      ∀ e ∈ l.edges, ∃ source ∈ l.nodes, ∃ target ∈ l.nodes,
        source.id = e.source.nodeId ∧ target.id = e.target.nodeId ∧
          e.kind.joins source.kind target.kind := by
  refine (build_cases f).imp id ?_
  intro built
  have distinct := (anchored_ofFacts f).distinct
  exact ⟨ofFacts f, built, distinct, distinct_edges_ofFacts f, fun _ within => exists_ends within⟩

end Layout

end Graph

end RenderFlow
