import RenderFlow.Proofs.Graph.Settling

/-!
Graphs without the places that records were defined at. Only the node of a side effect keeps such a
place, and nothing that is done with a node reads it, so forgetting it commutes with every step: with
adding nodes and edges (`Builder.unplaced_ofFacts`) and with both refiners (`Layout.pack_unplaced`,
`Layout.pairStates_unplaced`).
-/
namespace RenderFlow

open RenderFlow.Graph

def Metadata.unplaced (info : Metadata) : Metadata :=
  ⟨info.entries.map fun entry => if entry.1 == "defined_at" then (entry.1, .null) else entry⟩

theorem Metadata.get?_unplaced {key : String} (other : key ≠ "defined_at") (info : Metadata) :
    info.unplaced.get? key = info.get? key := by
  have blind : (fun entry : String × Json => entry.1 == key) ∘
      (fun entry => if entry.1 == "defined_at" then (entry.1, .null) else entry) =
      fun entry => entry.1 == key := by
    funext entry
    rw [Function.comp_apply]
    split <;> rfl
  rw [Table.get?, unplaced, List.find?_map, blind, Option.map_map, Table.get?]
  refine Option.map_congr fun entry found => ?_
  have named : entry.1 = key := by simpa using List.find?_some found
  rw [Function.comp_apply, if_neg (by simpa [named] using other)]

def Hook.unplaced (h : Hook) : Hook :=
  { h with definedAt := none }

def Effect.unplaced (e : Effect) : Effect :=
  { e with definedAt := none }

def Callback.unplaced (c : Callback) : Callback :=
  { c with definedAt := none }

def Variable.unplaced (v : Variable) : Variable :=
  { v with definedAt := none }

def Element.unplaced (e : Element) : Element :=
  { e with definedAt := none }

/-- A component without its source text and without the places in it. -/
def Facts.unplaced (f : Facts) : Facts :=
  { f with
    source := ""
    hooks := f.hooks.map Hook.unplaced
    effects := f.effects.map Effect.unplaced
    callbacks := f.callbacks.map Callback.unplaced
    locals := f.locals.map Variable.unplaced
    elements := f.elements.map Element.unplaced }

namespace Graph

/-- A node without the place where its record was defined. -/
def Node.unplaced (n : Node) : Node :=
  { n with info := if n.kind = .sideEffect then n.info.unplaced else n.info }

namespace Node

theorem unplaced_of_kind {n : Node} (other : n.kind ≠ .sideEffect) : n.unplaced = n := by
  rw [unplaced, if_neg other]

@[simp] theorem id_unplaced (n : Node) : n.unplaced.id = n.id := rfl

@[simp] theorem kind_unplaced (n : Node) : n.unplaced.kind = n.kind := rfl

variable {key : String}

theorem get?_unplaced (other : key ≠ "defined_at") (n : Node) :
    n.unplaced.info.get? key = n.info.get? key := by
  rw [unplaced]
  split
  · exact Metadata.get?_unplaced other n.info
  · rfl

theorem infoText?_unplaced (other : key ≠ "defined_at") (n : Node) :
    n.unplaced.infoText? key = n.infoText? key := by
  rw [infoText?, get?_unplaced other, infoText?]

theorem infoTexts_unplaced (other : key ≠ "defined_at") (n : Node) :
    n.unplaced.infoTexts key = n.infoTexts key := by
  rw [infoTexts, get?_unplaced other, infoTexts]

@[simp] theorem holdsHook_unplaced (hook : String) (n : Node) :
    n.unplaced.holdsHook hook = n.holdsHook hook := by
  rw [holdsHook, infoText?_unplaced (by decide), kind_unplaced, holdsHook]

theorem isHookState_unplaced (n : Node) : n.unplaced.isHookState = n.isHookState := by
  by_cases effect : n.kind = .sideEffect
  · rw [isHookState, kind_unplaced, isHookState, effect]
    rfl
  · rw [unplaced_of_kind effect]

end Node

theorem find?_unplaced {p : Node → Bool} (blind : ∀ n, p n.unplaced = p n) (nodes : List Node) :
    (nodes.map Node.unplaced).find? p = (nodes.find? p).map Node.unplaced := by
  have same : p ∘ Node.unplaced = p := funext blind
  rw [List.find?_map, same]

theorem updateFirst_unplaced {p : Node → Bool} {f : Node → Node}
    (blind : ∀ n, p n.unplaced = p n) (kept : ∀ n, p n → f n.unplaced = (f n).unplaced)
    (nodes : List Node) :
    updateFirst p f (nodes.map Node.unplaced) = (updateFirst p f nodes).map Node.unplaced := by
  induction nodes with
  | nil => rfl
  | cons n rest ih =>
    by_cases sought : p n
    · simp [updateFirst, blind, sought, kept]
    · simp [updateFirst, blind, sought, ih]

theorem updateLast_unplaced {p : Node → Bool} {f : Node → Node}
    (blind : ∀ n, p n.unplaced = p n) (kept : ∀ n, p n → f n.unplaced = (f n).unplaced)
    (nodes : List Node) :
    updateLast p f (nodes.map Node.unplaced) = (updateLast p f nodes).map Node.unplaced := by
  unfold updateLast
  rw [← List.map_reverse, updateFirst_unplaced blind kept, List.map_reverse]

theorem lastNode?_unplaced (nodes : List Node) (id : String) :
    lastNode? (nodes.map Node.unplaced) id = (lastNode? nodes id).map Node.unplaced := by
  rw [lastNode?, ← List.map_reverse]
  exact find?_unplaced (fun _ => rfl) nodes.reverse

namespace Builder

def unplaced (b : Builder) : Builder :=
  { b with nodes := b.nodes.map Node.unplaced }

@[simp] theorem node?_unplaced (b : Builder) (id : String) :
    b.unplaced.node? id = (b.node? id).map Node.unplaced :=
  find?_unplaced (fun _ => rfl) b.nodes

@[simp] theorem hasNode_unplaced (b : Builder) (id : String) : b.unplaced.hasNode id = b.hasNode id := by
  rw [hasNode, unplaced, List.any_map]
  rfl

theorem addNode_unplaced (b : Builder) (n : Node) :
    b.unplaced.addNode n.unplaced = ((b.addNode n).1.unplaced, (b.addNode n).2.unplaced) := by
  rw [addNode, addNode, Node.id_unplaced, node?_unplaced]
  cases b.node? n.id with
  | some held => rfl
  | none => simp [unplaced]

theorem addNodes_unplaced (b : Builder) (nodes : List Node) :
    b.unplaced.addNodes (nodes.map Node.unplaced) =
      ((b.addNodes nodes).1.unplaced, (b.addNodes nodes).2.map Node.unplaced) := by
  induction nodes generalizing b with
  | nil => rfl
  | cons n rest ih =>
    rw [List.map_cons, addNodes, addNode_unplaced, addNodes]
    dsimp only
    rw [ih]
    rfl

end Builder

namespace Inventory

def unplaced (v : Inventory) : Inventory where
  builder := v.builder.unplaced
  refs := v.refs.map Node.unplaced
  props := v.props.map Node.unplaced
  states := v.states.map Node.unplaced
  derived := v.derived.map Node.unplaced
  elements := v.elements.map Node.unplaced

end Inventory

theorem stacked_unplaced {kind : NodeKind} (other : kind ≠ .sideEffect) (x : Binary64) (start : Rat)
    (items : List Item) :
    (stacked kind x start items).map Node.unplaced = stacked kind x start items := by
  refine (List.map_congr_left fun n within => ?_).trans (List.map_id _)
  refine Node.unplaced_of_kind ?_
  rwa [kind_of_mem_stacked within]

theorem itemNode_unplaced (x y : Binary64) (item : Item) :
    Builder.itemNode .sideEffect x y { item with info := item.info.unplaced } =
      (Builder.itemNode .sideEffect x y item).unplaced := rfl

theorem elementNode_unplaced (columns : Columns) (index : Nat) (e : Element) :
    elementNode columns index e.unplaced = (elementNode columns index e).unplaced := by
  have other : (elementNode columns index e).kind ≠ .sideEffect := nofun
  rw [Node.unplaced_of_kind other]
  rfl

end Graph

namespace Facts

variable (f : Facts)

theorem refNodes_unplaced : f.unplaced.refNodes = f.refNodes.map Node.unplaced := by
  have items : f.unplaced.refItems = f.refItems := by
    rw [refItems, unplaced, List.filter_map, List.map_map]
    rfl
  rw [refNodes, items, ← refNodes, refNodes, stacked_unplaced (by decide)]

theorem propNodes_unplaced : f.unplaced.propNodes = f.propNodes.map Node.unplaced := by
  have refs : f.unplaced.refItems.length = f.refItems.length := by
    simpa [refNodes] using congrArg List.length f.refNodes_unplaced
  rw [propNodes, refs, propNodes, stacked_unplaced (by decide)]
  rfl

theorem stateNodes_unplaced : f.unplaced.stateNodes = f.stateNodes.map Node.unplaced := by
  have items : f.unplaced.stateItems = f.stateItems := by
    rw [stateItems, unplaced, List.filter_map, List.map_map]
    rfl
  rw [stateNodes, items, stateNodes, stacked_unplaced (by decide)]

theorem variableNodes_unplaced : f.unplaced.variableNodes = f.variableNodes.map Node.unplaced := by
  have items : f.unplaced.variableItems = f.variableItems := by
    rw [variableItems, unplaced, List.filter_map, List.map_map, List.map_map]
    rfl
  rw [variableNodes, items, variableNodes, stacked_unplaced (by decide)]

theorem sideEffectNodes_unplaced :
    f.unplaced.sideEffectNodes = f.sideEffectNodes.map Node.unplaced := by
  have items : f.unplaced.sideEffectItems =
      f.sideEffectItems.map fun item => { item with info := item.info.unplaced } := by
    simp only [sideEffectItems, unplaced, List.map_append, List.map_map]
    rfl
  rw [sideEffectNodes, items, sideEffectNodes]
  refine List.ext_getElem (by simp) fun index _ _ => ?_
  simp only [stacked, List.getElem_mapIdx, List.getElem_map]
  exact itemNode_unplaced _ _ _

theorem externalNodes_unplaced : f.unplaced.externalNodes = f.externalNodes.map Node.unplaced := by
  have effects : f.unplaced.sideEffectItems.length = f.sideEffectItems.length := by
    simpa [sideEffectNodes] using congrArg List.length f.sideEffectNodes_unplaced
  have calls : f.unplaced.externalCalls = f.externalCalls := by
    simp only [externalCalls, unplaced, List.flatMap_map]
    rfl
  rw [externalNodes, effects, calls, externalNodes, stacked_unplaced (by decide)]

theorem elementNodes_unplaced : f.unplaced.elementNodes = f.elementNodes.map Node.unplaced := by
  refine List.ext_getElem (by simp [elementNodes, unplaced]) fun index _ _ => ?_
  simp only [elementNodes, unplaced, List.getElem_mapIdx, List.getElem_map]
  exact elementNode_unplaced _ _ _

end Facts

namespace Graph

namespace Inventory

theorem unplaced_ofFacts (f : Facts) : ofFacts f.unplaced = (ofFacts f).unplaced := by
  have refs : afterRefs f.unplaced = (afterRefs f).unplaced := by
    rw [afterRefs, Facts.refNodes_unplaced]
    exact congrArg Prod.fst (Builder.addNodes_unplaced { columns := .standard } _)
  have props : afterProps f.unplaced = (afterProps f).unplaced := by
    rw [afterProps, refs, Facts.propNodes_unplaced, Builder.addNodes_unplaced, afterProps]
  have states : afterStates f.unplaced = (afterStates f).unplaced := by
    rw [afterStates, props, Facts.stateNodes_unplaced, Builder.addNodes_unplaced, afterStates]
  have derived : afterDerived f.unplaced = (afterDerived f).unplaced := by
    rw [afterDerived, states, Facts.variableNodes_unplaced, Builder.addNodes_unplaced, afterDerived]
  have effects : afterEffects f.unplaced = (afterEffects f).unplaced := by
    rw [afterEffects, derived, Facts.sideEffectNodes_unplaced, Builder.addNodes_unplaced,
      afterEffects]
  have calls : afterCalls f.unplaced = (afterCalls f).unplaced := by
    rw [afterCalls, effects, Facts.externalNodes_unplaced, Builder.addNodes_unplaced, afterCalls]
  have first : (({ columns := .standard } : Builder).addNodes (f.refNodes.map Node.unplaced)).2 =
      (({ columns := .standard } : Builder).addNodes f.refNodes).2.map Node.unplaced :=
    congrArg Prod.snd (Builder.addNodes_unplaced { columns := .standard } _)
  rw [ofFacts_eq, ofFacts_eq, refs, props, states, calls, Facts.refNodes_unplaced,
    Facts.propNodes_unplaced, Facts.stateNodes_unplaced, Facts.variableNodes_unplaced,
    Facts.elementNodes_unplaced, first]
  simp only [Builder.addNodes_unplaced]
  rfl

section Lookup

variable (v : Inventory) (name : String)

@[simp] theorem ref?_unplaced : v.unplaced.ref? name = (v.ref? name).map Node.unplaced :=
  find?_unplaced (fun _ => rfl) v.refs

@[simp] theorem prop?_unplaced : v.unplaced.prop? name = (v.prop? name).map Node.unplaced :=
  find?_unplaced (fun _ => rfl) v.props

@[simp] theorem variableNamed?_unplaced :
    v.unplaced.variableNamed? name = (v.variableNamed? name).map Node.unplaced :=
  find?_unplaced (fun _ => rfl) v.derived

@[simp] theorem state?_unplaced : v.unplaced.state? name = (v.state? name).map Node.unplaced :=
  find?_unplaced (fun _ => rfl) v.states

@[simp] theorem stateNamed?_unplaced :
    v.unplaced.stateNamed? name = (v.stateNamed? name).map Node.unplaced := by
  apply find?_unplaced
  intro n
  rw [Node.infoText?_unplaced (by decide)]

@[simp] theorem dependency?_unplaced :
    v.unplaced.dependency? name = (v.dependency? name).map Node.unplaced := by
  simp only [dependency?, ref?_unplaced, prop?_unplaced, variableNamed?_unplaced, state?_unplaced,
    Option.map_or]

@[simp] theorem source?_unplaced : v.unplaced.source? name = (v.source? name).map Node.unplaced := by
  simp only [source?, ref?_unplaced, prop?_unplaced, variableNamed?_unplaced, stateNamed?_unplaced,
    Option.map_or]

@[simp] theorem sideEffect?_unplaced :
    v.unplaced.sideEffect? name = (v.sideEffect? name).map Node.unplaced :=
  Builder.node?_unplaced v.builder _

end Lookup

end Inventory

namespace Wire

def unplaced (w : Wire) : Wire :=
  { w with source := w.source.unplaced, target := w.target.unplaced }

variable (v : Inventory) (node : Node)

theorem ofDependency_unplaced (name : String) :
    ofDependency v.unplaced node.unplaced name = (ofDependency v node name).map unplaced := by
  simp only [ofDependency, Inventory.dependency?_unplaced, Option.map_map]
  rfl

theorem ofRefRead_unplaced (name : String) :
    ofRefRead v.unplaced node.unplaced name = (ofRefRead v node name).map unplaced := by
  simp only [ofRefRead, Inventory.ref?_unplaced, Option.map_map]
  rfl

theorem ofSetter_unplaced (scheme setter : String) :
    ofSetter v.unplaced scheme node.unplaced setter =
      (ofSetter v scheme node setter).map unplaced := by
  simp only [ofSetter, Inventory.state?_unplaced, Option.map_map]
  rfl

theorem ofRefWrite_unplaced (name : String) :
    ofRefWrite v.unplaced node.unplaced name = (ofRefWrite v node name).map unplaced := by
  simp only [ofRefWrite, Inventory.ref?_unplaced, Option.map_map]
  rfl

theorem filterMap_unplaced {α : Type} {p q : α → Option Wire} (same : ∀ a, p a = (q a).map unplaced)
    (items : List α) : items.filterMap p = (items.filterMap q).map unplaced := by
  rw [funext same, List.map_filterMap]

theorem flatMap_unplaced {α : Type} {p q : α → List Wire} (same : ∀ a, p a = (q a).map unplaced)
    (items : List α) : items.flatMap p = (items.flatMap q).map unplaced := by
  rw [funext same, List.map_flatMap]

theorem ofEffect_unplaced (e : Effect) :
    ofEffect v.unplaced e.unplaced = (ofEffect v e).map unplaced := by
  have held : v.unplaced.sideEffect? e.unplaced.id = (v.sideEffect? e.id).map Node.unplaced :=
    Inventory.sideEffect?_unplaced v e.id
  rw [ofEffect, held, ofEffect]
  cases v.sideEffect? e.id with
  | none => rfl
  | some node =>
    dsimp only [Option.map_some]
    rw [List.map_append, List.map_append, List.map_append,
      ← filterMap_unplaced (ofRefRead_unplaced v node),
      ← filterMap_unplaced (ofSetter_unplaced v node "mut"),
      ← filterMap_unplaced (ofRefWrite_unplaced v node),
      ← filterMap_unplaced fun d : EffectDependency => ofDependency_unplaced v node d.name]
    rfl

theorem ofCallback_unplaced (c : Callback) :
    ofCallback v.unplaced c.unplaced = (ofCallback v c).map unplaced := by
  have held : v.unplaced.sideEffect? c.unplaced.id = (v.sideEffect? c.id).map Node.unplaced :=
    Inventory.sideEffect?_unplaced v c.id
  rw [ofCallback, held, ofCallback]
  cases v.sideEffect? c.id with
  | none => rfl
  | some node =>
    dsimp only [Option.map_some]
    rw [List.map_append, ← filterMap_unplaced (ofDependency_unplaced v node),
      ← filterMap_unplaced (ofSetter_unplaced v node "cb-mut")]
    rfl

theorem ofExternalCall_unplaced (recordId name : String) :
    ofExternalCall v.unplaced recordId name = (ofExternalCall v recordId name).map unplaced := by
  have call : v.unplaced.builder.node? (NodeKind.external.nodeId name) =
      (v.builder.node? (NodeKind.external.nodeId name)).map Node.unplaced :=
    Builder.node?_unplaced v.builder _
  rw [ofExternalCall, Inventory.sideEffect?_unplaced, call, ofExternalCall]
  cases v.sideEffect? recordId with
  | none => rfl
  | some node => cases v.builder.node? (NodeKind.external.nodeId name) <;> rfl

theorem ofSideEffects_unplaced (f : Facts) :
    ofSideEffects v.unplaced f.unplaced = (ofSideEffects v f).map unplaced := by
  have effects := flatMap_unplaced (ofEffect_unplaced v) f.effects
  have callbacks := flatMap_unplaced (ofCallback_unplaced v) f.callbacks
  have calls (recordId : String) := filterMap_unplaced (ofExternalCall_unplaced v recordId)
  have effectCalls := flatMap_unplaced (fun e : Effect => calls e.id e.externalCalls) f.effects
  have callbackCalls := flatMap_unplaced (fun c : Callback => calls c.id c.externalCalls) f.callbacks
  simp only [ofSideEffects, List.map_append, ← effects, ← callbacks, ← effectCalls, ← callbackCalls,
    Facts.unplaced, List.flatMap_map]
  rfl

theorem ofVariableRead_unplaced (name : String) :
    ofVariableRead v.unplaced node.unplaced name = (ofVariableRead v node name).map unplaced := by
  simp only [ofVariableRead, Inventory.source?_unplaced, Option.filter_map, Option.map_map]
  rfl

theorem ofVariable_unplaced (x : Variable) :
    ofVariable v.unplaced x.unplaced = (ofVariable v x).map unplaced := by
  have held : v.unplaced.builder.node? (NodeKind.variable.nodeId x.unplaced.id) =
      (v.builder.node? (NodeKind.variable.nodeId x.id)).map Node.unplaced :=
    Builder.node?_unplaced v.builder _
  rw [ofVariable, held, ofVariable]
  cases v.builder.node? (NodeKind.variable.nodeId x.id) with
  | none => rfl
  | some target => exact filterMap_unplaced (ofVariableRead_unplaced v target) x.dependencies

theorem ofBoundName_unplaced (name : String) :
    ofBoundName v.unplaced node.unplaced name = (ofBoundName v node name).map unplaced := by
  rw [ofBoundName, ofBoundName, Inventory.ref?_unplaced, Node.infoTexts_unplaced (by decide)]
  cases v.ref? name with
  | some ref =>
    dsimp only [Option.map_some]
    split <;> rfl
  | none =>
    simp only [Option.map_none, Inventory.state?_unplaced, Inventory.prop?_unplaced,
      Inventory.variableNamed?_unplaced, Option.map_or, Option.map_map]
    rfl

theorem ofNesting_unplaced :
    ofNesting v.unplaced node.unplaced = (ofNesting v node).map unplaced := by
  rw [ofNesting, ofNesting, Node.infoText?_unplaced (by decide)]
  cases node.infoText? "parent_id" with
  | none => rfl
  | some parentId =>
    have held : v.unplaced.builder.node? parentId = (v.builder.node? parentId).map Node.unplaced :=
      Builder.node?_unplaced v.builder parentId
    change (v.unplaced.builder.node? parentId).bind _ = _
    rw [held]
    cases found : v.builder.node? parentId with
    | none => simp [found]
    | some parent =>
      simp [found, unplaced]

theorem ofElements_unplaced : ofElements v.unplaced = (ofElements v).map unplaced := by
  have bound := flatMap_unplaced (fun n : Node =>
    (filterMap_unplaced (ofBoundName_unplaced v n) (n.infoTexts "props"))) v.elements
  have nested := filterMap_unplaced (ofNesting_unplaced v) v.elements
  have texts (n : Node) : n.unplaced.infoTexts "props" = n.infoTexts "props" :=
    Node.infoTexts_unplaced (by decide) n
  rw [ofElements, ofElements, List.map_append, ← bound, ← nested]
  simp only [Inventory.unplaced, List.flatMap_map, List.filterMap_map, texts]
  rfl

theorem unplaced_ofFacts (f : Facts) :
    ofFacts v.unplaced f.unplaced = (ofFacts v f).map unplaced := by
  have derived := flatMap_unplaced (ofVariable_unplaced v) f.locals
  rw [ofFacts, ofFacts, ofSideEffects_unplaced, ofElements_unplaced, List.map_append, List.map_append,
    ← derived]
  simp only [Facts.unplaced, List.flatMap_map]

end Wire

namespace Builder

theorem addWire_unplaced (b : Builder) (w : Wire) :
    b.unplaced.addWire w.unplaced = (b.addWire w).unplaced := by
  have accepts : b.unplaced.accepts w.unplaced.id w.unplaced.source w.unplaced.target =
      b.accepts w.id w.source w.target := by
    rw [Builder.accepts, hasNode_unplaced, hasNode_unplaced]
    rfl
  rw [addWire_eq, addWire_eq, accepts]
  split <;> rfl

theorem addWires_unplaced (b : Builder) (wires : List Wire) :
    b.unplaced.addWires (wires.map Wire.unplaced) = (b.addWires wires).unplaced := by
  induction wires generalizing b with
  | nil => rfl
  | cons w rest ih =>
    rw [List.map_cons]
    change (b.unplaced.addWire w.unplaced).addWires _ = ((b.addWire w).addWires rest).unplaced
    rw [addWire_unplaced, ih]

/-- The nodes and edges of a component, but for the places that they show, are those of the component
without its places. -/
theorem unplaced_ofFacts (f : Facts) : ofFacts f.unplaced = (ofFacts f).unplaced := by
  rw [ofFacts, ofFacts, Inventory.unplaced_ofFacts, Wire.unplaced_ofFacts]
  exact addWires_unplaced _ _

end Builder

namespace Layout

def unplaced (l : Layout) : Layout :=
  { l with nodes := l.nodes.map Node.unplaced }

theorem refresh_unplaced (l : Layout) : l.unplaced.refresh = l.refresh.unplaced := by
  have drawn (e : Edge) : e.refreshed l.unplaced.nodes = e.refreshed l.nodes := by
    rw [Edge.refreshed, unplaced, lastNode?_unplaced, lastNode?_unplaced, Edge.refreshed]
    cases lastNode? l.nodes e.source.nodeId with
    | none => rfl
    | some source => cases lastNode? l.nodes e.target.nodeId <;> rfl
  rw [refresh, refresh, funext drawn]
  rfl

theorem fit_unplaced (l : Layout) : l.unplaced.fit = l.fit.unplaced := by
  have grown (nodes : List Node) (m : Layout) :
      (nodes.map Node.unplaced).foldl growFor m.unplaced = (nodes.foldl growFor m).unplaced := by
    induction nodes generalizing m with
    | nil => rfl
    | cons n rest ih => exact ih (m.growFor n)
  exact grown l.nodes l

theorem filter_isElement_unplaced (nodes : List Node) :
    (nodes.map Node.unplaced).filter Node.isElement = nodes.filter Node.isElement := by
  rw [List.filter_map]
  refine (List.map_congr_left fun n within => ?_).trans (List.map_id _)
  apply Node.unplaced_of_kind
  have element : n.isElement := (List.mem_filter.mp within).2
  rw [beq_iff_eq.mp element]
  decide

theorem placeElement_unplaced (base : Binary64) (nodes : List Node) (place : String × Nat) :
    placeElement base (nodes.map Node.unplaced) place =
      (placeElement base nodes place).map Node.unplaced := by
  apply updateLast_unplaced
  · exact fun n => rfl
  · intro n meant
    rw [Bool.and_eq_true] at meant
    have other : n.kind ≠ .sideEffect := by
      rw [beq_iff_eq.mp meant.1]
      decide
    rw [Node.unplaced_of_kind other, Node.unplaced_of_kind (by exact other)]

theorem pack_unplaced (l : Layout) : l.unplaced.pack = l.pack.unplaced := by
  have placed (places : Hierarchy.Places) (nodes : List Node) :
      places.foldl (placeElement l.columns.elements) (nodes.map Node.unplaced) =
        (places.foldl (placeElement l.columns.elements) nodes).map Node.unplaced := by
    induction places generalizing nodes with
    | nil => rfl
    | cons place rest ih => rw [List.foldl_cons, placeElement_unplaced, ih, List.foldl_cons]
  have elements : l.unplaced.nodes.filter Node.isElement = l.nodes.filter Node.isElement :=
    filter_isElement_unplaced l.nodes
  unfold pack
  dsimp only
  rw [elements]
  split
  · rfl
  · cases Hierarchy.rows? (l.nodes.filter Node.isElement) with
    | none => rfl
    | some places =>
      rw [← fit_unplaced, ← refresh_unplaced]
      exact congrArg (fun nodes => ({ l with nodes := nodes } : Layout).refresh.fit)
        (placed places l.nodes)

section States

variable (l : Layout)

theorem stateNode?_unplaced (hook : String) :
    l.unplaced.stateNode? hook = (l.stateNode? hook).map Node.unplaced := by
  rw [stateNode?, unplaced, ← List.map_reverse]
  exact find?_unplaced (Node.holdsHook_unplaced hook) l.nodes.reverse

theorem placeState_unplaced (hook : String) (x : Binary64) (row : Nat) (slot : String) :
    l.unplaced.placeState hook x row slot = (l.placeState hook x row slot).unplaced := by
  have placed : updateLast (Node.holdsHook hook) (Node.inSlot x row slot)
      (l.nodes.map Node.unplaced) =
      (updateLast (Node.holdsHook hook) (Node.inSlot x row slot) l.nodes).map Node.unplaced := by
    apply updateLast_unplaced (Node.holdsHook_unplaced hook)
    intro n holds
    rw [Node.holdsHook, Bool.and_eq_true] at holds
    have other : n.kind ≠ .sideEffect := by
      rw [beq_iff_eq.mp holds.1]
      decide
    rw [Node.unplaced_of_kind other, Node.unplaced_of_kind (by exact other)]
  exact congrArg (fun nodes => ({ l with nodes := nodes } : Layout)) placed

theorem linkStates_unplaced (first second : String) :
    l.unplaced.linkStates first second = (l.linkStates first second).unplaced := by
  rw [linkStates, stateNode?_unplaced, stateNode?_unplaced, linkStates]
  cases l.stateNode? first with
  | none => rfl
  | some source =>
    cases l.stateNode? second with
    | none => rfl
    | some target =>
      dsimp only [Option.map_some]
      by_cases old : l.edges.any (·.id == "link-" ++ source.id ++ "-" ++ target.id)
      · rw [if_pos old]
        exact if_pos old
      · rw [if_neg old]
        exact if_neg old

theorem placeRow_unplaced (row : Nat) (r : StateRow) :
    l.unplaced.placeRow row r = (l.placeRow row r).unplaced := by
  cases r with
  | pair first second =>
    change ((l.unplaced.placeState first _ row _).placeState second _ row _).linkStates _ _ = _
    rw [placeState_unplaced, placeState_unplaced, linkStates_unplaced]
    rfl
  | value hook => exact placeState_unplaced l _ _ _ _
  | function hook => exact placeState_unplaced l _ _ _ _

theorem placeRows_unplaced (row : Nat) (rows : List StateRow) :
    l.unplaced.placeRows row rows = (l.placeRows row rows).unplaced := by
  induction rows generalizing l row with
  | nil => rfl
  | cons r rest ih => rw [placeRows, placeRow_unplaced, ih, placeRows]

theorem pairStates_unplaced (f : Facts) : l.unplaced.pairStates f = (l.pairStates f).unplaced := by
  have states : l.unplaced.nodes.any Node.isHookState = l.nodes.any Node.isHookState := by
    rw [unplaced, List.any_map]
    exact congrArg l.nodes.any (funext Node.isHookState_unplaced)
  have known (h : Hook) : (l.unplaced.stateNode? h.id).isSome = (l.stateNode? h.id).isSome := by
    rw [stateNode?_unplaced, Option.isSome_map]
  unfold pairStates
  dsimp only
  rw [states]
  simp only [known]
  split
  · rw [placeRows_unplaced, refresh_unplaced, fit_unplaced]
  · rfl

end States

end Layout

end Graph

end RenderFlow
