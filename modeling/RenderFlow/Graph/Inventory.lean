import RenderFlow.Facts.Json
import RenderFlow.Graph.Builder

/-!
The nodes of a component, column by column, before any edge is drawn. Records with the same id share
the node of the first.
-/
namespace RenderFlow

namespace HookKind

def isState : HookKind → Bool
  | .localState | .externalStore | .asyncQuery => true
  | _ => false

def isVariable : HookKind → Bool
  | .reducer | .memoizedValue | .unclassified => true
  | _ => false

end HookKind

namespace Graph

def Item.ofRef (h : Hook) (label : String) : Item where
  id := h.id
  label := label
  info := ⟨[
    ("hook_id", .text h.id),
    ("name", .text h.name),
    ("hook_kind", .text h.kind.name),
    ("scope", .text h.scope.name)]⟩

def Item.ofHook (h : Hook) : Item :=
  .ofRef h h.name

def Item.ofState (h : Hook) : Item :=
  .ofRef h (if h.scope == .global then h.name ++ " (global)" else h.name)

def Item.ofProp (name : String) : Item where
  id := name
  label := name
  info := ⟨[("prop", .text name)]⟩

def Item.ofVariable (v : Variable) : Item where
  id := v.id
  label := v.name
  info := ⟨[("variable_id", .text v.id), ("dependencies", .ofTexts v.dependencies)]⟩

def effectLabel : EffectKind → String
  | .effect => "useEffect"
  | .layoutEffect => "useLayoutEffect"

def Item.ofEffect (e : Effect) : Item where
  id := e.id
  label := effectLabel e.kind
  info := ⟨("type", .text "effect") :: e.toFields⟩

def Item.ofCallback (c : Callback) : Item where
  id := c.id
  label := (c.name.filter (· != "")).getD "callback"
  info := ⟨("type", .text "callback") :: c.toFields⟩

def Item.ofExternalCall (name : String) : Item where
  id := name
  label := name
  info := ⟨[("call", .text name)]⟩

def parentNodeId? (e : Element) : Option String :=
  (e.parentId.filter (· != "")).map NodeKind.element.nodeId

/-- An element's first place: indented by its depth, one row for each element. -/
def elementNode (columns : Columns) (index : Nat) (e : Element) : Node where
  id := NodeKind.element.nodeId e.id
  label := e.component
  kind := .element
  x := columns.elements.add (.ofRat (e.depth * 160))
  y := .ofRat (firstRow + index * NodeKind.element.rowGap)
  info := ⟨[
    ("element_id", .text e.id),
    ("depth", .int e.depth),
    ("props", .ofTexts e.props),
    ("ref_props", .ofTexts e.refProps),
    ("parent_id", .ofText? (parentNodeId? e))]⟩

/-- The columns that names are looked up in, with the builder that holds their nodes. -/
structure Inventory where
  builder : Builder
  refs : List Node
  props : List Node
  states : List Node
  derived : List Node
  elements : List Node

end Graph

namespace Facts

def externalCalls (f : Facts) : List String :=
  distinct (f.effects.flatMap (·.externalCalls) ++ f.callbacks.flatMap (·.externalCalls))

def refItems (f : Facts) : List Graph.Item :=
  (f.hooks.filter (·.kind == .ref)).map .ofHook

def stateItems (f : Facts) : List Graph.Item :=
  (f.hooks.filter (·.kind.isState)).map .ofState

def variableItems (f : Facts) : List Graph.Item :=
  (f.hooks.filter (·.kind.isVariable)).map .ofHook ++ f.locals.map .ofVariable

def sideEffectItems (f : Facts) : List Graph.Item :=
  f.effects.map .ofEffect ++ f.callbacks.map .ofCallback

end Facts

namespace Graph

/-- Props continue the column of the refs, and network calls that of the side effects after a free
row. -/
def Inventory.ofFacts (f : Facts) : Inventory :=
  let columns := Columns.standard
  let b : Builder := { columns := columns }
  let (b, refs) := b.stackColumn .independent columns.independents firstRow f.refItems
  let propStart := firstRow + refs.length * NodeKind.independent.rowGap
  let (b, props) := b.stackColumn .prop columns.independents propStart (f.props.map .ofProp)
  let (b, states) := b.stackColumn .state columns.states firstRow f.stateItems
  let (b, derived) := b.stackColumn .variable columns.derived firstRow f.variableItems
  let (b, sideEffects) := b.stackColumn .sideEffect columns.effects firstRow f.sideEffectItems
  let callStart := firstRow + (sideEffects.length + 1) * NodeKind.sideEffect.rowGap
  let (b, _) := b.stackColumn .external columns.effects callStart
    (f.externalCalls.map .ofExternalCall)
  let (b, elements) := b.addNodes (f.elements.mapIdx (elementNode columns))
  ⟨b, refs, props, states, derived, elements⟩

end Graph

end RenderFlow
