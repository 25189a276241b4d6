import RenderFlow.Graph.Inventory
import RenderFlow.Hook.Callee

/-!
The edges of a component. Names are looked up in the columns, and an edge whose end is not found is
left out. Every edge's id spells out its ends, so that one relation is drawn once.
-/
namespace RenderFlow.Graph

structure Wire where
  id : String
  source : Node
  target : Node
  kind : EdgeKind
  label : Option String

namespace Inventory

def labelled? (nodes : List Node) (name : String) : Option Node :=
  nodes.find? (·.label == name)

/-- The first state node whose label starts with a name, which the label of global state does. -/
def state? (v : Inventory) (name : String) : Option Node :=
  v.states.find? fun n => Text.hasPrefix n.label name

def stateNamed? (v : Inventory) (name : String) : Option Node :=
  v.states.find? (·.infoText? "name" == some name)

def ref? (v : Inventory) (name : String) : Option Node :=
  labelled? v.refs name

def prop? (v : Inventory) (name : String) : Option Node :=
  labelled? v.props name

def variableNamed? (v : Inventory) (name : String) : Option Node :=
  labelled? v.derived name

def dependency? (v : Inventory) (name : String) : Option Node :=
  (v.state? name).or <| (v.ref? name).or <| (v.variableNamed? name).or (v.prop? name)

def source? (v : Inventory) (name : String) : Option Node :=
  (v.stateNamed? name).or <| (v.ref? name).or <| (v.prop? name).or (v.variableNamed? name)

def sideEffect? (v : Inventory) (recordId : String) : Option Node :=
  v.builder.node? (NodeKind.sideEffect.nodeId recordId)

end Inventory

def wireId (parts : List String) : String :=
  "-".intercalate parts

namespace Wire

def ofDependency (v : Inventory) (node : Node) (name : String) : Option Wire :=
  (v.dependency? name).map fun source =>
    ⟨wireId ["dep", source.id, node.id, name], source, node, .dependency, some name⟩

def ofRefRead (v : Inventory) (node : Node) (name : String) : Option Wire :=
  (v.ref? name).map fun ref =>
    ⟨wireId ["dep-ref", ref.id, node.id, name], ref, node, .dependency, some name⟩

/-- `scheme` tells the setters of effects from those of callbacks. -/
def ofSetter (v : Inventory) (scheme : String) (node : Node) (setter : String) : Option Wire :=
  (v.state? (Callee.stateName setter)).map fun state =>
    ⟨wireId [scheme, node.id, state.id, setter], node, state, .mutation, some setter⟩

def ofRefWrite (v : Inventory) (node : Node) (name : String) : Option Wire :=
  (v.ref? name).map fun ref =>
    ⟨wireId ["mut-ref", node.id, ref.id, name], node, ref, .mutation, some name⟩

def ofEffect (v : Inventory) (e : Effect) : List Wire :=
  match v.sideEffect? e.id with
  | none => []
  | some node =>
    e.dependencies.filterMap (ofDependency v node ·.name)
      ++ e.refReads.filterMap (ofRefRead v node)
      ++ e.setters.filterMap (ofSetter v "mut" node)
      ++ e.refWrites.filterMap (ofRefWrite v node)

def ofCallback (v : Inventory) (c : Callback) : List Wire :=
  match v.sideEffect? c.id with
  | none => []
  | some node =>
    c.dependencies.filterMap (ofDependency v node)
      ++ c.setters.filterMap (ofSetter v "cb-mut" node)

def ofExternalCall (v : Inventory) (recordId name : String) : Option Wire := do
  let node ← v.sideEffect? recordId
  let call ← v.builder.node? (NodeKind.external.nodeId name)
  return ⟨wireId ["ext", node.id, call.id], node, call, .external, some name⟩

def ofSideEffects (v : Inventory) (f : Facts) : List Wire :=
  f.effects.flatMap (ofEffect v)
    ++ f.callbacks.flatMap (ofCallback v)
    ++ f.effects.flatMap (fun e => e.externalCalls.filterMap (ofExternalCall v e.id))
    ++ f.callbacks.flatMap (fun c => c.externalCalls.filterMap (ofExternalCall v c.id))

/-- A variable may read its own name from an outer scope, which is no edge. -/
def ofVariableRead (v : Inventory) (target : Node) (name : String) : Option Wire :=
  ((v.source? name).filter (·.id != target.id)).map fun source =>
    ⟨wireId ["var-dep", source.id, target.id, name], source, target, .dependency, some name⟩

def ofVariable (v : Inventory) (x : Variable) : List Wire :=
  match v.builder.node? (NodeKind.variable.nodeId x.id) with
  | none => []
  | some target => x.dependencies.filterMap (ofVariableRead v target)

/-- What an element's markup does with a name: it attaches a ref, or it reads a ref, state, prop or
variable. -/
def ofBoundName (v : Inventory) (element : Node) (name : String) : Option Wire :=
  let reads (scheme : String) (source : Node) : Wire :=
    ⟨wireId [scheme, source.id, element.id, name], source, element, .dependency, some name⟩
  match v.ref? name with
  | some ref =>
    if (element.infoTexts "ref_props").contains name then
      some ⟨wireId ["jsx-ref-attr", element.id, ref.id, name], element, ref, .mutation, some name⟩
    else
      some (reads "jsx-ref-prop" ref)
  | none =>
    ((v.state? name).map (reads "jsx-prop")).or <|
      ((v.prop? name).map (reads "prop-jsx")).or <|
        (v.variableNamed? name).map (reads "jsx-var")

def ofNesting (v : Inventory) (element : Node) : Option Wire := do
  let parentId ← element.infoText? "parent_id"
  let parent ← v.builder.node? parentId
  return ⟨wireId ["jsx-tree", parentId, element.id], parent, element, .flow, none⟩

def ofElements (v : Inventory) : List Wire :=
  v.elements.flatMap (fun n => (n.infoTexts "props").filterMap (ofBoundName v n))
    ++ v.elements.filterMap (ofNesting v)

def ofFacts (v : Inventory) (f : Facts) : List Wire :=
  ofSideEffects v f ++ f.locals.flatMap (ofVariable v) ++ ofElements v

end Wire

namespace Builder

def addWire (b : Builder) (w : Wire) : Builder :=
  (b.addEdge w.id (some w.source) (some w.target) w.kind w.label).1

def addWires (b : Builder) (wires : List Wire) : Builder :=
  wires.foldl addWire b

end Builder

end RenderFlow.Graph
