import RenderFlow.Proofs.Graph.Elements
import RenderFlow.Proofs.Graph.Relations
import RenderFlow.Proofs.Text.Hyphens

/-!
The kind of a node is spelled in its id, in front of the first hyphen, so a look-up by id or in a
column gives a node of the kind that it asks for: `Inventory.sorted_ofFacts`. Between which kinds an
edge may run is told by `EdgeKind.joins`, and every wire of a component runs so: `Wire.Drawn.joins`.
-/
namespace RenderFlow.Graph

open Text

namespace NodeKind

theorem unhyphenated_idPrefix (kind : NodeKind) : Unhyphenated kind.idPrefix := by
  cases kind <;> decide

theorem hyphenParts_nodeId (kind : NodeKind) (recordId : String) :
    hyphenParts (kind.nodeId recordId) = kind.idPrefix :: hyphenParts recordId := by
  rw [nodeId, hyphenParts_append, kind.unhyphenated_idPrefix.parts, List.singleton_append]

theorem idPrefix_injective {a b : NodeKind} (same : a.idPrefix = b.idPrefix) : a = b := by
  cases a <;> cases b <;> first
    | rfl
    | exact absurd same (by decide)

theorem eq_of_nodeId_eq {a b : NodeKind} {recordId other : String}
    (same : a.nodeId recordId = b.nodeId other) : a = b := by
  have parts := congrArg hyphenParts same
  rw [hyphenParts_nodeId, hyphenParts_nodeId] at parts
  exact idPrefix_injective (List.cons.inj parts).1

def isRead : NodeKind → Bool
  | .state | .independent | .variable | .prop => true
  | _ => false

def reads : NodeKind → Bool
  | .sideEffect | .variable | .element => true
  | _ => false

end NodeKind

def EdgeKind.joins : EdgeKind → NodeKind → NodeKind → Bool
  | .dependency, source, target => source.isRead && target.reads
  | .mutation, .sideEffect, .state => true
  | .mutation, .sideEffect, .independent => true
  | .mutation, .element, .independent => true
  | .external, .sideEffect, .external => true
  | .flow, .element, .element => true
  | .link, .state, .state => true
  | _, _, _ => false

def Node.SpellsKind (n : Node) : Prop :=
  ∃ recordId, n.id = n.kind.nodeId recordId

theorem Node.SpellsKind.kind_eq {n : Node} (spells : n.SpellsKind) {kind : NodeKind}
    {recordId : String} (named : n.id = kind.nodeId recordId) : n.kind = kind := by
  obtain ⟨own, same⟩ := spells
  exact NodeKind.eq_of_nodeId_eq (same.symm.trans named)

theorem exists_item_of_mem_stacked {kind : NodeKind} {x : Binary64} {start : Rat}
    {items : List Item} {n : Node} (within : n ∈ stacked kind x start items) :
    ∃ item ∈ items, n.id = kind.nodeId item.id := by
  obtain ⟨index, short, rfl⟩ := List.mem_mapIdx.mp within
  exact ⟨items[index], List.getElem_mem short, rfl⟩

end RenderFlow.Graph

namespace RenderFlow.Facts

open RenderFlow.Graph

theorem exists_element_of_mem_elementNodes {f : Facts} {n : Node} (within : n ∈ f.elementNodes) :
    ∃ index, ∃ e ∈ f.elements, n = elementNode Columns.standard index e := by
  obtain ⟨index, short, rfl⟩ := List.mem_mapIdx.mp within
  exact ⟨index, _, List.getElem_mem short, rfl⟩

theorem spellsKind_of_mem_requestedNodes {f : Facts} {n : Node}
    (requested : n ∈ f.requestedNodes) : n.SpellsKind :=
  forall_requestedNodes (fun _ _ _ item => ⟨item.id, rfl⟩) (fun e _ _ => ⟨e.id, rfl⟩) n requested

end RenderFlow.Facts

namespace RenderFlow.Graph

namespace Inventory

/-- Every column holds nodes of its kind, and elements name elements as their parents. -/
structure Sorted (v : Inventory) : Prop where
  spelled : ∀ n ∈ v.builder.nodes, n.SpellsKind
  refs : ∀ n ∈ v.refs, n.kind = .independent
  props : ∀ n ∈ v.props, n.kind = .prop
  states : ∀ n ∈ v.states, n.kind = .state
  derived : ∀ n ∈ v.derived, n.kind = .variable
  elements : ∀ n ∈ v.elements, n.kind = .element
  parents : ∀ n ∈ v.elements, ∀ id, n.infoText? "parent_id" = some id →
    ∃ recordId, id = NodeKind.element.nodeId recordId

theorem spelled_ofFacts {f : Facts} {n : Node} (held : n ∈ (Inventory.ofFacts f).builder.nodes) :
    n.SpellsKind :=
  Facts.spellsKind_of_mem_requestedNodes (requested_ofFacts held)

theorem kind_of_column {f : Facts} {column asked : List Node} {kind : NodeKind}
    (held : column ⊆ (Inventory.ofFacts f).builder.nodes) (ids : nodeIds column = nodeIds asked)
    (named : ∀ m ∈ asked, ∃ recordId, m.id = kind.nodeId recordId) :
    ∀ n ∈ column, n.kind = kind := by
  intro n within
  have listed : n.id ∈ nodeIds asked := ids ▸ mem_nodeIds.mpr ⟨n, within, rfl⟩
  obtain ⟨m, asked_for, same⟩ := mem_nodeIds.mp listed
  obtain ⟨recordId, spelled⟩ := named m asked_for
  exact (spelled_ofFacts (held within)).kind_eq (same.symm.trans spelled)

theorem kind_of_mem_elements {f : Facts} {n : Node}
    (within : n ∈ (Inventory.ofFacts f).elements) : n.kind = .element := by
  refine kind_of_column (housed_ofFacts f).elements (nodeIds_elements f) ?_ n within
  intro m asked
  obtain ⟨index, e, -, rfl⟩ := Facts.exists_element_of_mem_elementNodes asked
  exact ⟨e.id, rfl⟩

theorem exists_element_of_mem {f : Facts} {n : Node}
    (within : n ∈ (Inventory.ofFacts f).elements) :
    ∃ index, ∃ e ∈ f.elements, n = elementNode Columns.standard index e := by
  have lane := f.mem_laneNodes (requested_ofFacts ((housed_ofFacts f).elements within))
  rw [kind_of_mem_elements within] at lane
  exact Facts.exists_element_of_mem_elementNodes lane

theorem sorted_ofFacts (f : Facts) : (Inventory.ofFacts f).Sorted := by
  have housed := housed_ofFacts f
  have stack {kind : NodeKind} {x : Binary64} {start : Rat} {items : List Item} :
      ∀ m ∈ stacked kind x start items, ∃ recordId, m.id = kind.nodeId recordId := by
    intro m within
    obtain ⟨item, -, named⟩ := exists_item_of_mem_stacked within
    exact ⟨item.id, named⟩
  exact {
    spelled := fun n held => spelled_ofFacts held
    refs := kind_of_column housed.refs (nodeIds_refs f) stack
    props := kind_of_column housed.props (nodeIds_props f) stack
    states := kind_of_column housed.states (nodeIds_states f) stack
    derived := kind_of_column housed.derived (nodeIds_derived f) stack
    elements := fun n within => kind_of_mem_elements within
    parents := by
      intro n within id below
      obtain ⟨index, e, -, rfl⟩ := exists_element_of_mem within
      rw [parent_elementNode] at below
      obtain ⟨p, -, rfl⟩ := Option.map_eq_some_iff.mp below
      exact ⟨p, rfl⟩ }

variable {v : Inventory} {name : String} {n : Node}

theorem kind_of_node? (sorted : v.Sorted) {kind : NodeKind} {recordId : String}
    (found : v.builder.node? (kind.nodeId recordId) = some n) : n.kind = kind :=
  (sorted.spelled n (Builder.mem_of_node? found)).kind_eq (Builder.id_of_node? found)

theorem kind_of_ref? (sorted : v.Sorted) (found : v.ref? name = some n) :
    n.kind = .independent :=
  sorted.refs n (List.mem_of_find?_eq_some found)

theorem kind_of_state? (sorted : v.Sorted) (found : v.state? name = some n) : n.kind = .state :=
  sorted.states n (List.mem_of_find?_eq_some found)

theorem kind_of_prop? (sorted : v.Sorted) (found : v.prop? name = some n) : n.kind = .prop :=
  sorted.props n (List.mem_of_find?_eq_some found)

theorem kind_of_variableNamed? (sorted : v.Sorted) (found : v.variableNamed? name = some n) :
    n.kind = .variable :=
  sorted.derived n (List.mem_of_find?_eq_some found)

theorem isRead_of_dependency? (sorted : v.Sorted) (found : v.dependency? name = some n) :
    n.kind.isRead := by
  rcases Option.or_eq_some_iff.mp found with found | ⟨-, found⟩
  · rw [kind_of_state? sorted found]
    rfl
  rcases Option.or_eq_some_iff.mp found with found | ⟨-, found⟩
  · rw [kind_of_ref? sorted found]
    rfl
  rcases Option.or_eq_some_iff.mp found with found | ⟨-, found⟩
  · rw [kind_of_variableNamed? sorted found]
    rfl
  · rw [kind_of_prop? sorted found]
    rfl

theorem isRead_of_source? (sorted : v.Sorted) (found : v.source? name = some n) :
    n.kind.isRead := by
  rcases Option.or_eq_some_iff.mp found with found | ⟨-, found⟩
  · rw [sorted.states n (List.mem_of_find?_eq_some found)]
    rfl
  rcases Option.or_eq_some_iff.mp found with found | ⟨-, found⟩
  · rw [kind_of_ref? sorted found]
    rfl
  rcases Option.or_eq_some_iff.mp found with found | ⟨-, found⟩
  · rw [kind_of_prop? sorted found]
    rfl
  · rw [kind_of_variableNamed? sorted found]
    rfl

end Inventory

open Inventory in
theorem Wire.Drawn.joins {v : Inventory} {f : Facts} {w : Wire} (drawn : Wire.Drawn v f w)
    (sorted : v.Sorted) : w.kind.joins w.source.kind w.target.kind := by
  cases drawn with
  | effectDependency _ node _ found | callbackDependency _ node _ found =>
    rw [EdgeKind.joins, kind_of_node? sorted node, isRead_of_dependency? sorted found]
    rfl
  | refRead _ node _ found =>
    rw [kind_of_node? sorted node, kind_of_ref? sorted found]
    rfl
  | effectSetter _ node _ found | callbackSetter _ node _ found =>
    rw [kind_of_node? sorted node, kind_of_state? sorted found]
    rfl
  | refWrite _ node _ found =>
    rw [kind_of_node? sorted node, kind_of_ref? sorted found]
    rfl
  | effectCall _ node _ found | callbackCall _ node _ found =>
    rw [kind_of_node? sorted node, kind_of_node? sorted found]
    rfl
  | variableRead _ node _ found _ =>
    rw [EdgeKind.joins, kind_of_node? sorted node, isRead_of_source? sorted found]
    rfl
  | refAttachment listed _ found _ | refUse listed _ found _ =>
    rw [sorted.elements _ listed, kind_of_ref? sorted found]
    rfl
  | stateUse listed _ _ found =>
    rw [sorted.elements _ listed, kind_of_state? sorted found]
    rfl
  | propUse listed _ _ found =>
    rw [sorted.elements _ listed, kind_of_prop? sorted found]
    rfl
  | variableUse listed _ _ found =>
    rw [sorted.elements _ listed, kind_of_variableNamed? sorted found]
    rfl
  | nesting listed below found =>
    obtain ⟨recordId, rfl⟩ := sorted.parents _ listed _ below
    rw [sorted.elements _ listed, kind_of_node? sorted found]
    rfl

end RenderFlow.Graph
