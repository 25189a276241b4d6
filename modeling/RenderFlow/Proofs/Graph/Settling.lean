import RenderFlow.Proofs.Graph.Anchoring
import RenderFlow.Proofs.Graph.Elements
import RenderFlow.Proofs.Graph.Slots

/-!
The layout of a component before and after its elements and states were moved, node by node. Nothing
but elements is packed and nothing but states is paired, so each lane settles by itself.
-/
namespace RenderFlow

open RenderFlow.Graph Hierarchy

namespace Graph

theorem holdsHook_ofState {h : Hook} {x y : Binary64} {hook : String} :
    (Builder.itemNode .state x y (.ofState h)).holdsHook hook ↔ hook = h.id := by
  have found : (Builder.itemNode .state x y (.ofState h)).infoText? "hook_id" = some h.id := by
    simp [Builder.itemNode, Item.ofState, Item.ofRef, Node.infoText?, Table.get?, Json.asText?]
  have kind : (Builder.itemNode .state x y (.ofState h)).kind = .state := rfl
  rw [Node.holdsHook, found, kind]
  simp only [beq_self_eq_true, Bool.true_and, beq_iff_eq, Option.some.injEq]
  exact eq_comm

end Graph

namespace Facts

variable {f : Facts}

theorem exists_state_of_mem_stateNodes {n : Node} (within : n ∈ f.stateNodes) :
    ∃ h ∈ f.hooks, h.kind.isState ∧
      ∃ y, n = Builder.itemNode .state Columns.standard.states y (.ofState h) := by
  obtain ⟨index, short, rfl⟩ := List.mem_mapIdx.mp within
  have item : f.stateItems[index] ∈ f.stateItems := List.getElem_mem short
  obtain ⟨h, held, same⟩ := List.mem_map.mp item
  obtain ⟨listed, state⟩ := List.mem_filter.mp held
  exact ⟨h, listed, state, _, by rw [same]⟩

theorem exists_hook_of_mem_stateNodes {n : Node} (within : n ∈ f.stateNodes) :
    ∃ h ∈ f.hooks, n.id = NodeKind.state.nodeId h.id ∧ ∀ hook, n.holdsHook hook ↔ hook = h.id := by
  obtain ⟨h, listed, -, y, rfl⟩ := exists_state_of_mem_stateNodes within
  exact ⟨h, listed, rfl, fun hook => holdsHook_ofState⟩

end Facts

namespace Graph.Layout

variable (f : Facts)

def unmoved : Layout :=
  (Builder.ofFacts f).toLayout

theorem nodes_unmoved : (unmoved f).nodes = (Inventory.ofFacts f).builder.nodes := by
  rw [unmoved, Builder.toLayout, nodes_fit]
  exact Builder.nodes_ofFacts f

theorem columns_unmoved : (unmoved f).columns = .standard := by
  rw [unmoved, Builder.toLayout, columns_fit]
  change (Builder.ofFacts f).columns = .standard
  rw [Builder.ofFacts, Builder.columns_addWires, Inventory.builder_ofFacts, Builder.addNodes_eq]

theorem distinct_unmoved : (nodeIds (unmoved f).nodes).Nodup := by
  rw [nodes_unmoved]
  exact Inventory.distinct_ofFacts f

variable {f}

theorem requested_unmoved {n : Node} (held : n ∈ (unmoved f).nodes) : n ∈ f.requestedNodes := by
  rw [nodes_unmoved] at held
  exact Inventory.requested_ofFacts held

theorem lane_unmoved {n : Node} (held : n ∈ (unmoved f).nodes) : n ∈ f.laneNodes n.kind.lane :=
  f.mem_laneNodes (requested_unmoved held)

theorem elements_unmoved_subset : (unmoved f).elements ⊆ f.elementNodes := by
  intro n within
  obtain ⟨held, element⟩ := List.mem_filter.mp within
  have lane := lane_unmoved held
  rw [beq_iff_eq.mp element] at lane
  exact lane

theorem distinct_elements_unmoved (f : Facts) : (nodeIds (unmoved f).elements).Nodup :=
  distinct_elements (distinct_unmoved f)

theorem length_elements_unmoved_le : (unmoved f).elements.length ≤ f.elements.length := by
  have distinct := distinct_elements_unmoved f
  have subset : nodeIds (unmoved f).elements ⊆ nodeIds f.elementNodes :=
    List.map_subset _ elements_unmoved_subset
  simpa [nodeIds, Facts.elementNodes] using (List.subperm_of_subset distinct subset).length_le

theorem state_of_lane {n : Node} (states : n.kind.lane = .states) : n.kind = .state := by
  revert states
  cases n.kind <;> simp [NodeKind.lane]

theorem element_of_lane {n : Node} (elements : n.kind.lane = .elements) : n.kind = .element := by
  revert elements
  cases n.kind <;> simp [NodeKind.lane]

theorem columns_pack (l : Layout) : l.pack.columns = l.columns := by
  unfold pack
  dsimp only
  split
  · rfl
  · split
    · exact columns_fit _
    · rfl

theorem namesHooks_unmoved : NamesHooks (unmoved f).nodes := by
  intro n held hook holds
  have lane := lane_unmoved held
  have state : n.kind = .state := by
    rw [Node.holdsHook, Bool.and_eq_true, beq_iff_eq] at holds
    exact holds.1
  rw [state] at lane
  obtain ⟨h, -, named, only⟩ := Facts.exists_hook_of_mem_stateNodes lane
  rw [named, (only hook).mp holds]

theorem namesHooks_packed {base : Binary64} {places : Places} :
    NamesHooks ((unmoved f).nodes.map (Node.packed base places)) :=
  namesHooks_unmoved.map (fun _ => Node.id_packed) (fun _ => Node.holdsHook_packed)

def settle (f : Facts) (places : Places) (n : Node) : Node :=
  (n.packed Columns.standard.elements places).slotted (unmoved f).pack.leftSlot
    (unmoved f).pack.rightSlot ((unmoved f).pack.stateSlots f)

/-- How the nodes of a component settle: the rows of the elements fill the element tree. -/
structure Settles (f : Facts) (places : Places) (next : Nat) : Prop where
  fills : (ofElements (unmoved f).elements).Fills (ofElements (unmoved f).elements).roots 0 places next
  nodup : (placedIds places).Nodup
  packed : (unmoved f).pack.nodes =
    (unmoved f).nodes.map (Node.packed Columns.standard.elements places)
  settled : (Layout.ofFacts f).nodes = (unmoved f).nodes.map (settle f places)

theorem Settles.row_lt {f : Facts} {places : Places} {next : Nat} (settles : Settles f places next)
    {place : String × Nat} (given : place ∈ places) : place.2 < f.elements.length := by
  have bound := (settles.fills.bounds place given).2
  have spread := settles.fills.le.2
  have count := settles.fills.length_le (isForest_ofElements (distinct_elements_unmoved f))
  have total := length_elements_unmoved_le (f := f)
  rw [nodeIds, List.length_map] at count
  omega

theorem exists_settles (f : Facts) : ∃ places next, Settles f places next := by
  obtain ⟨places, next, fills, nodup, packed⟩ := exists_nodes_pack (distinct_unmoved f)
  rw [columns_unmoved] at packed
  have distinct : (nodeIds (unmoved f).pack.nodes).Nodup := by
    have same : nodeIds (unmoved f).pack.nodes = nodeIds (unmoved f).nodes := by
      rw [packed, nodeIds, List.map_map]
      exact List.map_congr_left fun n _ => Node.id_packed
    rw [same]
    exact distinct_unmoved f
  have named : NamesHooks (unmoved f).pack.nodes := packed ▸ namesHooks_packed
  have paired := nodes_pairStates distinct named f
  refine ⟨places, next, fills, nodup, packed, ?_⟩
  rw [packed, List.map_map] at paired
  exact paired

end Graph.Layout

end RenderFlow
