import RenderFlow.Graph.Wiring
import RenderFlow.Proofs.Graph.Inventories

/-!
What every wire of a component stands for. `Wire.drawn_of_mem` is the one place where the passes that
ask for wires are taken apart; that a wire's ends are held by the builder (`Wire.Drawn.held`) is read
off it.
-/
namespace RenderFlow.Graph

namespace Wire

/-- The record that a wire comes from and how its ends were looked up. -/
inductive Drawn (v : Inventory) (f : Facts) : Wire → Prop where
  | effectDependency {e : Effect} {d : EffectDependency} {node source : Node}
      (record : e ∈ f.effects) (target : v.sideEffect? e.id = some node)
      (listed : d ∈ e.dependencies) (found : v.dependency? d.name = some source) :
      Drawn v f ⟨wireId ["dep", source.id, node.id, d.name], source, node, .dependency, some d.name⟩
  | refRead {e : Effect} {name : String} {node ref : Node}
      (record : e ∈ f.effects) (target : v.sideEffect? e.id = some node)
      (listed : name ∈ e.refReads) (found : v.ref? name = some ref) :
      Drawn v f ⟨wireId ["dep-ref", ref.id, node.id, name], ref, node, .dependency, some name⟩
  | effectSetter {e : Effect} {setter : String} {node state : Node}
      (record : e ∈ f.effects) (source : v.sideEffect? e.id = some node)
      (listed : setter ∈ e.setters) (found : v.state? (Callee.stateName setter) = some state) :
      Drawn v f ⟨wireId ["mut", node.id, state.id, setter], node, state, .mutation, some setter⟩
  | refWrite {e : Effect} {name : String} {node ref : Node}
      (record : e ∈ f.effects) (source : v.sideEffect? e.id = some node)
      (listed : name ∈ e.refWrites) (found : v.ref? name = some ref) :
      Drawn v f ⟨wireId ["mut-ref", node.id, ref.id, name], node, ref, .mutation, some name⟩
  | callbackDependency {c : Callback} {name : String} {node source : Node}
      (record : c ∈ f.callbacks) (target : v.sideEffect? c.id = some node)
      (listed : name ∈ c.dependencies) (found : v.dependency? name = some source) :
      Drawn v f ⟨wireId ["dep", source.id, node.id, name], source, node, .dependency, some name⟩
  | callbackSetter {c : Callback} {setter : String} {node state : Node}
      (record : c ∈ f.callbacks) (source : v.sideEffect? c.id = some node)
      (listed : setter ∈ c.setters) (found : v.state? (Callee.stateName setter) = some state) :
      Drawn v f ⟨wireId ["cb-mut", node.id, state.id, setter], node, state, .mutation, some setter⟩
  | effectCall {e : Effect} {name : String} {node call : Node}
      (record : e ∈ f.effects) (source : v.sideEffect? e.id = some node)
      (listed : name ∈ e.externalCalls)
      (found : v.builder.node? (NodeKind.external.nodeId name) = some call) :
      Drawn v f ⟨wireId ["ext", node.id, call.id], node, call, .external, some name⟩
  | callbackCall {c : Callback} {name : String} {node call : Node}
      (record : c ∈ f.callbacks) (source : v.sideEffect? c.id = some node)
      (listed : name ∈ c.externalCalls)
      (found : v.builder.node? (NodeKind.external.nodeId name) = some call) :
      Drawn v f ⟨wireId ["ext", node.id, call.id], node, call, .external, some name⟩
  | variableRead {x : Variable} {name : String} {node source : Node}
      (record : x ∈ f.locals) (target : v.builder.node? (NodeKind.variable.nodeId x.id) = some node)
      (listed : name ∈ x.dependencies) (found : v.source? name = some source)
      (apart : source.id ≠ node.id) :
      Drawn v f ⟨wireId ["var-dep", source.id, node.id, name], source, node, .dependency, some name⟩
  | refAttachment {element ref : Node} {name : String}
      (listed : element ∈ v.elements) (bound : name ∈ element.infoTexts "props")
      (found : v.ref? name = some ref) (attached : name ∈ element.infoTexts "ref_props") :
      Drawn v f
        ⟨wireId ["jsx-ref-attr", element.id, ref.id, name], element, ref, .mutation, some name⟩
  | refUse {element ref : Node} {name : String}
      (listed : element ∈ v.elements) (bound : name ∈ element.infoTexts "props")
      (found : v.ref? name = some ref) (unattached : name ∉ element.infoTexts "ref_props") :
      Drawn v f
        ⟨wireId ["jsx-ref-prop", ref.id, element.id, name], ref, element, .dependency, some name⟩
  | stateUse {element state : Node} {name : String}
      (listed : element ∈ v.elements) (bound : name ∈ element.infoTexts "props")
      (other : v.ref? name = none) (found : v.state? name = some state) :
      Drawn v f
        ⟨wireId ["jsx-prop", state.id, element.id, name], state, element, .dependency, some name⟩
  | propUse {element prop : Node} {name : String}
      (listed : element ∈ v.elements) (bound : name ∈ element.infoTexts "props")
      (others : v.ref? name = none ∧ v.state? name = none) (found : v.prop? name = some prop) :
      Drawn v f
        ⟨wireId ["prop-jsx", prop.id, element.id, name], prop, element, .dependency, some name⟩
  | variableUse {element node : Node} {name : String}
      (listed : element ∈ v.elements) (bound : name ∈ element.infoTexts "props")
      (others : v.ref? name = none ∧ v.state? name = none ∧ v.prop? name = none)
      (found : v.variableNamed? name = some node) :
      Drawn v f
        ⟨wireId ["jsx-var", node.id, element.id, name], node, element, .dependency, some name⟩
  | nesting {element parent : Node} {id : String}
      (listed : element ∈ v.elements) (below : element.infoText? "parent_id" = some id)
      (found : v.builder.node? id = some parent) :
      Drawn v f ⟨wireId ["jsx-tree", id, element.id], parent, element, .flow, none⟩

variable {v : Inventory} {f : Facts} {w : Wire}

private theorem drawn_of_effect {e : Effect} (record : e ∈ f.effects) (h : w ∈ ofEffect v e) :
    Drawn v f w := by
  unfold ofEffect at h
  split at h
  · cases h
  · rename_i node target
    simp only [List.mem_append, List.mem_filterMap] at h
    rcases h with ((⟨d, listed, h⟩ | ⟨name, listed, h⟩) | ⟨setter, listed, h⟩) | ⟨name, listed, h⟩
    · obtain ⟨source, found, rfl⟩ := Option.map_eq_some_iff.mp h
      exact .effectDependency record target listed found
    · obtain ⟨ref, found, rfl⟩ := Option.map_eq_some_iff.mp h
      exact .refRead record target listed found
    · obtain ⟨state, found, rfl⟩ := Option.map_eq_some_iff.mp h
      exact .effectSetter record target listed found
    · obtain ⟨ref, found, rfl⟩ := Option.map_eq_some_iff.mp h
      exact .refWrite record target listed found

private theorem drawn_of_callback {c : Callback} (record : c ∈ f.callbacks)
    (h : w ∈ ofCallback v c) : Drawn v f w := by
  unfold ofCallback at h
  split at h
  · cases h
  · rename_i node target
    simp only [List.mem_append, List.mem_filterMap] at h
    rcases h with ⟨name, listed, h⟩ | ⟨setter, listed, h⟩
    · obtain ⟨source, found, rfl⟩ := Option.map_eq_some_iff.mp h
      exact .callbackDependency record target listed found
    · obtain ⟨state, found, rfl⟩ := Option.map_eq_some_iff.mp h
      exact .callbackSetter record target listed found

private theorem ofExternalCall_eq_some {recordId name : String}
    (h : ofExternalCall v recordId name = some w) :
    ∃ node call, v.sideEffect? recordId = some node ∧
      v.builder.node? (NodeKind.external.nodeId name) = some call ∧
      w = ⟨wireId ["ext", node.id, call.id], node, call, .external, some name⟩ := by
  obtain ⟨node, source, h⟩ := Option.bind_eq_some_iff.mp h
  obtain ⟨call, found, h⟩ := Option.bind_eq_some_iff.mp h
  exact ⟨node, call, source, found, (Option.some.inj h).symm⟩

private theorem drawn_of_sideEffects (h : w ∈ ofSideEffects v f) : Drawn v f w := by
  simp only [ofSideEffects, List.mem_append, List.mem_flatMap, List.mem_filterMap] at h
  rcases h with ((⟨e, record, h⟩ | ⟨c, record, h⟩) | ⟨e, record, name, listed, h⟩) |
    ⟨c, record, name, listed, h⟩
  · exact drawn_of_effect record h
  · exact drawn_of_callback record h
  · obtain ⟨node, call, source, found, rfl⟩ := ofExternalCall_eq_some h
    exact .effectCall record source listed found
  · obtain ⟨node, call, source, found, rfl⟩ := ofExternalCall_eq_some h
    exact .callbackCall record source listed found

private theorem drawn_of_variable {x : Variable} (record : x ∈ f.locals)
    (h : w ∈ ofVariable v x) : Drawn v f w := by
  unfold ofVariable at h
  split at h
  · cases h
  · rename_i node target
    obtain ⟨name, listed, h⟩ := List.mem_filterMap.mp h
    obtain ⟨source, found, rfl⟩ := Option.map_eq_some_iff.mp h
    obtain ⟨found, apart⟩ := Option.filter_eq_some_iff.mp found
    exact .variableRead record target listed found (by simpa using apart)

private theorem drawn_of_boundName {element : Node} {name : String} (listed : element ∈ v.elements)
    (bound : name ∈ element.infoTexts "props") (h : ofBoundName v element name = some w) :
    Drawn v f w := by
  unfold ofBoundName at h
  dsimp only at h
  split at h
  · rename_i ref found
    split at h
    · rename_i attached
      cases h
      exact .refAttachment listed bound found (by simpa using attached)
    · rename_i unattached
      cases h
      exact .refUse listed bound found (by simpa using unattached)
  · rename_i other
    cases state : v.state? name with
    | some node =>
      rw [state] at h
      cases h
      exact .stateUse listed bound other state
    | none =>
      cases prop : v.prop? name with
      | some node =>
        rw [state, prop] at h
        cases h
        exact .propUse listed bound ⟨other, state⟩ prop
      | none =>
        rw [state, prop] at h
        obtain ⟨node, found, rfl⟩ := Option.map_eq_some_iff.mp h
        exact .variableUse listed bound ⟨other, state, prop⟩ found

private theorem drawn_of_elements (h : w ∈ ofElements v) : Drawn v f w := by
  simp only [ofElements, List.mem_append, List.mem_flatMap, List.mem_filterMap] at h
  rcases h with ⟨element, listed, name, bound, h⟩ | ⟨element, listed, h⟩
  · exact drawn_of_boundName listed bound h
  · obtain ⟨id, below, h⟩ := Option.bind_eq_some_iff.mp h
    obtain ⟨parent, found, h⟩ := Option.bind_eq_some_iff.mp h
    cases h
    exact .nesting listed below found

theorem drawn_of_mem (h : w ∈ ofFacts v f) : Drawn v f w := by
  simp only [ofFacts, List.mem_append, List.mem_flatMap] at h
  rcases h with (h | ⟨x, record, h⟩) | h
  · exact drawn_of_sideEffects h
  · exact drawn_of_variable record h
  · exact drawn_of_elements h

end Wire

namespace Inventory

variable {v : Inventory} {name : String} {n : Node}

theorem mem_of_ref? (housed : v.Housed) (found : v.ref? name = some n) : n ∈ v.builder.nodes :=
  housed.refs (List.mem_of_find?_eq_some found)

theorem mem_of_state? (housed : v.Housed) (found : v.state? name = some n) :
    n ∈ v.builder.nodes :=
  housed.states (List.mem_of_find?_eq_some found)

theorem mem_of_prop? (housed : v.Housed) (found : v.prop? name = some n) : n ∈ v.builder.nodes :=
  housed.props (List.mem_of_find?_eq_some found)

theorem mem_of_variableNamed? (housed : v.Housed) (found : v.variableNamed? name = some n) :
    n ∈ v.builder.nodes :=
  housed.derived (List.mem_of_find?_eq_some found)

theorem mem_of_dependency? (housed : v.Housed) (found : v.dependency? name = some n) :
    n ∈ v.builder.nodes := by
  rcases Option.or_eq_some_iff.mp found with found | ⟨-, found⟩
  · exact mem_of_state? housed found
  rcases Option.or_eq_some_iff.mp found with found | ⟨-, found⟩
  · exact mem_of_ref? housed found
  rcases Option.or_eq_some_iff.mp found with found | ⟨-, found⟩
  · exact mem_of_variableNamed? housed found
  · exact mem_of_prop? housed found

theorem mem_of_source? (housed : v.Housed) (found : v.source? name = some n) :
    n ∈ v.builder.nodes := by
  rcases Option.or_eq_some_iff.mp found with found | ⟨-, found⟩
  · exact housed.states (List.mem_of_find?_eq_some found)
  rcases Option.or_eq_some_iff.mp found with found | ⟨-, found⟩
  · exact mem_of_ref? housed found
  rcases Option.or_eq_some_iff.mp found with found | ⟨-, found⟩
  · exact mem_of_prop? housed found
  · exact mem_of_variableNamed? housed found

end Inventory

theorem Wire.Drawn.held {v : Inventory} {f : Facts} {w : Wire} (drawn : Wire.Drawn v f w)
    (housed : v.Housed) : w.source ∈ v.builder.nodes ∧ w.target ∈ v.builder.nodes := by
  open Inventory Builder in
  cases drawn with
  | effectDependency _ node _ found | callbackDependency _ node _ found =>
    exact ⟨mem_of_dependency? housed found, mem_of_node? node⟩
  | refRead _ node _ found => exact ⟨mem_of_ref? housed found, mem_of_node? node⟩
  | effectSetter _ node _ found | callbackSetter _ node _ found =>
    exact ⟨mem_of_node? node, mem_of_state? housed found⟩
  | refWrite _ node _ found => exact ⟨mem_of_node? node, mem_of_ref? housed found⟩
  | effectCall _ node _ found | callbackCall _ node _ found =>
    exact ⟨mem_of_node? node, mem_of_node? found⟩
  | variableRead _ node _ found _ => exact ⟨mem_of_source? housed found, mem_of_node? node⟩
  | refAttachment listed _ found _ => exact ⟨housed.elements listed, mem_of_ref? housed found⟩
  | refUse listed _ found _ => exact ⟨mem_of_ref? housed found, housed.elements listed⟩
  | stateUse listed _ _ found => exact ⟨mem_of_state? housed found, housed.elements listed⟩
  | propUse listed _ _ found => exact ⟨mem_of_prop? housed found, housed.elements listed⟩
  | variableUse listed _ _ found =>
    exact ⟨mem_of_variableNamed? housed found, housed.elements listed⟩
  | nesting listed _ found => exact ⟨mem_of_node? found, housed.elements listed⟩

end RenderFlow.Graph
