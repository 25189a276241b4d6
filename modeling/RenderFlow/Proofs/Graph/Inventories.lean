import RenderFlow.Proofs.Graph.Holdings

/-!
The nodes of a component before any edge is drawn. All columns together are one list that is asked
for (`builder_ofFacts`), and what the columns give back for looking names up is held by the builder
(`housed_ofFacts`).
-/
namespace RenderFlow

namespace Graph

def stacked (kind : NodeKind) (x : Binary64) (start : Rat) (items : List Item) : List Node :=
  items.mapIdx fun index => Builder.itemNode kind x (.ofRat (start + index * kind.rowGap))

@[simp] theorem length_stacked (kind : NodeKind) (x : Binary64) (start : Rat)
    (items : List Item) : (stacked kind x start items).length = items.length := by
  simp [stacked]

theorem kind_of_mem_stacked {kind : NodeKind} {x : Binary64} {start : Rat} {items : List Item}
    {n : Node} (within : n ∈ stacked kind x start items) : n.kind = kind := by
  obtain ⟨index, short, rfl⟩ := List.mem_mapIdx.mp within
  rfl

theorem forall_stacked {P : Node → Prop} {kind : NodeKind} {x : Binary64} {start : Rat}
    {items : List Item} (holds : ∀ (y : Rat) item, P (Builder.itemNode kind x (.ofRat y) item)) :
    ∀ n ∈ stacked kind x start items, P n := by
  intro n within
  obtain ⟨index, short, rfl⟩ := List.mem_mapIdx.mp within
  exact holds _ items[index]

theorem stackColumn_eq (b : Builder) (kind : NodeKind) (x : Binary64) (start : Rat)
    (items : List Item) :
    b.stackColumn kind x start items = b.addNodes (stacked kind x start items) := rfl

end Graph

namespace Facts

open RenderFlow.Graph

variable (f : Facts)

def refNodes : List Node :=
  stacked .independent Columns.standard.independents firstRow f.refItems

def propNodes : List Node :=
  stacked .prop Columns.standard.independents
    (firstRow + f.refItems.length * NodeKind.independent.rowGap) (f.props.map .ofProp)

def stateNodes : List Node :=
  stacked .state Columns.standard.states firstRow f.stateItems

def variableNodes : List Node :=
  stacked .variable Columns.standard.derived firstRow f.variableItems

def sideEffectNodes : List Node :=
  stacked .sideEffect Columns.standard.effects firstRow f.sideEffectItems

def externalNodes : List Node :=
  stacked .external Columns.standard.effects
    (firstRow + (f.sideEffectItems.length + 1) * NodeKind.sideEffect.rowGap)
    (f.externalCalls.map .ofExternalCall)

def elementNodes : List Node :=
  f.elements.mapIdx (elementNode Columns.standard)

theorem kind_of_mem_elementNodes {n : Node} (within : n ∈ f.elementNodes) :
    n.kind = .element := by
  obtain ⟨index, short, rfl⟩ := List.mem_mapIdx.mp within
  rfl

def requestedNodes : List Node :=
  f.refNodes ++ f.propNodes ++ f.stateNodes ++ f.variableNodes ++ f.sideEffectNodes
    ++ f.externalNodes ++ f.elementNodes

theorem forall_requestedNodes {f : Facts} {P : Node → Prop}
    (stacked : ∀ kind (x y : Rat) item, P (Builder.itemNode kind (.finite x) (.ofRat y) item))
    (element : ∀ e ∈ f.elements, ∀ index, P (elementNode Columns.standard index e)) :
    ∀ n ∈ f.requestedNodes, P n := by
  intro n requested
  simp only [requestedNodes, List.mem_append] at requested
  rcases requested with (((((ref | prop) | state) | derived) | effect) | external) | nested
  · exact forall_stacked (stacked _ _) n ref
  · exact forall_stacked (stacked _ _) n prop
  · exact forall_stacked (stacked _ _) n state
  · exact forall_stacked (stacked _ _) n derived
  · exact forall_stacked (stacked _ _) n effect
  · exact forall_stacked (stacked _ _) n external
  · obtain ⟨index, short, rfl⟩ := List.mem_mapIdx.mp nested
    exact element _ (List.getElem_mem short) index

end Facts

namespace Graph

namespace Inventory

structure Housed (v : Inventory) : Prop where
  distinct : (nodeIds v.builder.nodes).Nodup
  refs : v.refs ⊆ v.builder.nodes
  props : v.props ⊆ v.builder.nodes
  states : v.states ⊆ v.builder.nodes
  derived : v.derived ⊆ v.builder.nodes
  elements : v.elements ⊆ v.builder.nodes

def afterRefs (f : Facts) : Builder :=
  (({ columns := Columns.standard } : Builder).addNodes f.refNodes).1

def afterProps (f : Facts) : Builder :=
  ((afterRefs f).addNodes f.propNodes).1

def afterStates (f : Facts) : Builder :=
  ((afterProps f).addNodes f.stateNodes).1

def afterDerived (f : Facts) : Builder :=
  ((afterStates f).addNodes f.variableNodes).1

def afterEffects (f : Facts) : Builder :=
  ((afterDerived f).addNodes f.sideEffectNodes).1

def afterCalls (f : Facts) : Builder :=
  ((afterEffects f).addNodes f.externalNodes).1

theorem ofFacts_eq (f : Facts) : Inventory.ofFacts f = {
    builder := ((afterCalls f).addNodes f.elementNodes).1
    refs := (({ columns := Columns.standard } : Builder).addNodes f.refNodes).2
    props := ((afterRefs f).addNodes f.propNodes).2
    states := ((afterProps f).addNodes f.stateNodes).2
    derived := ((afterStates f).addNodes f.variableNodes).2
    elements := ((afterCalls f).addNodes f.elementNodes).2 } := by
  simp only [Inventory.ofFacts, stackColumn_eq, Builder.length_addNodes_held, length_stacked]
  rfl

theorem builder_ofFacts (f : Facts) :
    (Inventory.ofFacts f).builder =
      (({ columns := Columns.standard } : Builder).addNodes f.requestedNodes).1 := by
  rw [ofFacts_eq]
  simp only [Facts.requestedNodes, Builder.addNodes_append]
  rfl

theorem nodeIds_refs (f : Facts) : nodeIds (Inventory.ofFacts f).refs = nodeIds f.refNodes := by
  rw [ofFacts_eq]
  exact Builder.nodeIds_addNodes_held _ _

theorem nodeIds_props (f : Facts) : nodeIds (Inventory.ofFacts f).props = nodeIds f.propNodes := by
  rw [ofFacts_eq]
  exact Builder.nodeIds_addNodes_held _ _

theorem nodeIds_states (f : Facts) :
    nodeIds (Inventory.ofFacts f).states = nodeIds f.stateNodes := by
  rw [ofFacts_eq]
  exact Builder.nodeIds_addNodes_held _ _

theorem nodeIds_derived (f : Facts) :
    nodeIds (Inventory.ofFacts f).derived = nodeIds f.variableNodes := by
  rw [ofFacts_eq]
  exact Builder.nodeIds_addNodes_held _ _

theorem nodeIds_elements (f : Facts) :
    nodeIds (Inventory.ofFacts f).elements = nodeIds f.elementNodes := by
  rw [ofFacts_eq]
  exact Builder.nodeIds_addNodes_held _ _

theorem distinct_ofFacts (f : Facts) : (nodeIds (Inventory.ofFacts f).builder.nodes).Nodup := by
  have empty : (nodeIds ({ columns := Columns.standard } : Builder).nodes).Nodup := List.nodup_nil
  rw [builder_ofFacts]
  exact Builder.distinct_addNodes empty f.requestedNodes

theorem requested_ofFacts {f : Facts} {n : Node} (held : n ∈ (Inventory.ofFacts f).builder.nodes) :
    n ∈ f.requestedNodes := by
  rw [builder_ofFacts, Builder.addNodes_eq] at held
  exact (mem_of_mem_newcomers held).1

/-- Every id that was asked for has a node. -/
theorem held_of_requested {f : Facts} {id : String} (requested : id ∈ nodeIds f.requestedNodes) :
    id ∈ nodeIds (Inventory.ofFacts f).builder.nodes := by
  rw [builder_ofFacts, Builder.addNodes_eq, nodeIds_append]
  exact mem_nodeIds_newcomers.mpr (.inr requested)

theorem housed_ofFacts (f : Facts) : (Inventory.ofFacts f).Housed := by
  have distinct := distinct_ofFacts f
  rw [ofFacts_eq] at distinct ⊢
  -- No later column takes a node away, so each one's nodes reach the last builder.
  have fromCalls := Builder.prefix_addNodes (afterCalls f) f.elementNodes
  have fromEffects := (Builder.prefix_addNodes (afterEffects f) f.externalNodes).trans fromCalls
  have fromDerived := (Builder.prefix_addNodes (afterDerived f) f.sideEffectNodes).trans fromEffects
  have fromStates := (Builder.prefix_addNodes (afterStates f) f.variableNodes).trans fromDerived
  have fromProps := (Builder.prefix_addNodes (afterProps f) f.stateNodes).trans fromStates
  have fromRefs := (Builder.prefix_addNodes (afterRefs f) f.propNodes).trans fromProps
  exact {
    distinct := distinct
    refs := List.Subset.trans (Builder.addNodes_held _ f.refNodes) fromRefs.subset
    props := List.Subset.trans (Builder.addNodes_held _ f.propNodes) fromProps.subset
    states := List.Subset.trans (Builder.addNodes_held _ f.stateNodes) fromStates.subset
    derived := List.Subset.trans (Builder.addNodes_held _ f.variableNodes) fromDerived.subset
    elements := Builder.addNodes_held _ f.elementNodes }

theorem find?_states (f : Facts) {p : Node → Bool} (only : ∀ n, p n → n.kind = .state) :
    (Inventory.ofFacts f).states.find? p = (Inventory.ofFacts f).builder.nodes.find? p := by
  have unsought {nodes : List Node} (other : ∀ n ∈ nodes, n.kind ≠ .state) : ∀ n ∈ nodes, ¬ p n :=
    fun n within sought => other n within (only n sought)
  have column {kind : NodeKind} {x : Binary64} {start : Rat} {items : List Item}
      (other : kind ≠ .state) : ∀ n ∈ stacked kind x start items, ¬ p n := by
    refine unsought fun n within => ?_
    rw [kind_of_mem_stacked within]
    exact other
  have refs : ∀ n ∈ f.refNodes, ¬ p n := column (by decide)
  have props : ∀ n ∈ f.propNodes, ¬ p n := column (by decide)
  have derived : ∀ n ∈ f.variableNodes, ¬ p n := column (by decide)
  have effects : ∀ n ∈ f.sideEffectNodes, ¬ p n := column (by decide)
  have calls : ∀ n ∈ f.externalNodes, ¬ p n := column (by decide)
  have elements : ∀ n ∈ f.elementNodes, ¬ p n := by
    refine unsought fun n within => ?_
    rw [f.kind_of_mem_elementNodes within]
    decide
  have before : ∀ n ∈ (afterProps f).nodes, ¬ p n := by
    refine List.find?_eq_none.mp ?_
    rw [afterProps, Builder.find?_addNodes_of_none props, afterRefs,
      Builder.find?_addNodes_of_none refs]
    rfl
  rw [ofFacts_eq]
  dsimp only
  rw [Builder.find?_addNodes_held before, Builder.find?_addNodes_of_none elements, afterCalls,
    Builder.find?_addNodes_of_none calls, afterEffects, Builder.find?_addNodes_of_none effects,
    afterDerived, Builder.find?_addNodes_of_none derived, afterStates]

end Inventory

end Graph

end RenderFlow
