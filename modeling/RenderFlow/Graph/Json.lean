import RenderFlow.Graph.Basic
import RenderFlow.Json.Reading

/-!
Graphs as JSON records. Coordinates are written with a point, apart from the height of the nodes that
are placed in whole rows; a place that was set by hand stays as it was written.
-/
namespace RenderFlow.Graph

open Record

/-- State and element nodes stand in rows, whose heights are whole numbers. -/
def NodeKind.hasRows : NodeKind → Bool
  | .state | .element => true
  | _ => false

namespace Node

def xJson (n : Node) : Json :=
  match n.written with
  | some (x, _) => x
  | none => .real n.x

def yJson (n : Node) : Json :=
  match n.written with
  | some (_, y) => y
  | none =>
    match n.y with
    | .finite y => if n.kind.hasRows && y.den == 1 then .int y.num else .real n.y
    | y => .real y

def toJson (n : Node) : Json :=
  .object [
    ("id", .text n.id),
    ("label", .text n.label),
    ("kind", .text n.kind.name),
    ("x", n.xJson),
    ("y", n.yJson),
    ("width", .real n.width),
    ("height", .real n.height),
    ("meta", .object (Extra.weave n.info.entries n.extras))]

def ofFields (fields : Fields) : Except RecordError Node := do
  let id ← required fields "id" Json.asText?
  let label ← required fields "label" Json.asText?
  let kind ← required fields "kind" (Json.asNamed? NodeKind.ofName?)
  let x ← required fields "x" Json.asReal?
  let y ← required fields "y" Json.asReal?
  let width ← optional fields "width" Json.asReal? 120
  let height ← optional fields "height" Json.asReal? 32
  let info ← optional fields "meta" Json.asFields? []
  return ⟨id, label, kind, x, y, width, height, Table.setAll {} info, none, []⟩

def ofJson : Json → Except RecordError Node :=
  reader ofFields

end Node

namespace Endpoint

def toJson (e : Endpoint) : Json :=
  .object [("node_id", .text e.nodeId), ("x", .real e.x), ("y", .real e.y)]

def ofFields (fields : Fields) : Except RecordError Endpoint := do
  let nodeId ← required fields "node_id" Json.asText?
  let x ← required fields "x" Json.asReal?
  let y ← required fields "y" Json.asReal?
  return ⟨nodeId, x, y⟩

end Endpoint

namespace Edge

def toJson (e : Edge) : Json :=
  .object [
    ("id", .text e.id),
    ("source", e.source.toJson),
    ("target", e.target.toJson),
    ("kind", .text e.kind.name),
    ("label", .ofText? e.label)]

def ofFields (fields : Fields) : Except RecordError Edge := do
  let id ← required fields "id" Json.asText?
  let source ← required fields "source" (nested Endpoint.ofFields)
  let target ← required fields "target" (nested Endpoint.ofFields)
  let kind ← required fields "kind" (Json.asNamed? EdgeKind.ofName?)
  let label ← optional fields "label" (Json.asNullable? Json.asText?) none
  return ⟨id, source, target, kind, label⟩

end Edge

namespace Columns

def toJson (c : Columns) : Json :=
  .object [
    ("independent", .real c.independents),
    ("state", .real c.states),
    ("variable", .real c.derived),
    ("effect", .real c.effects),
    ("jsx", .real c.elements)]

def ofFields (fields : Fields) : Except RecordError Columns := do
  let independents ← required fields "independent" Json.asReal?
  let states ← required fields "state" Json.asReal?
  let derived ← required fields "variable" Json.asReal?
  let effects ← required fields "effect" Json.asReal?
  let elements ← required fields "jsx" Json.asReal?
  return ⟨independents, states, derived, effects, elements⟩

end Columns

namespace Layout

def toJson (l : Layout) : Json :=
  .object [
    ("nodes", .list (l.nodes.map (·.toJson))),
    ("edges", .list (l.edges.map (·.toJson))),
    ("width", .real l.width),
    ("height", .real l.height),
    ("col_x", l.columns.toJson)]

def ofFields (fields : Fields) : Except RecordError Layout := do
  let nodes ← optional fields "nodes" (Json.asList? (nested Node.ofFields)) []
  let edges ← optional fields "edges" (Json.asList? (nested Edge.ofFields)) []
  let width ← required fields "width" Json.asReal?
  let height ← required fields "height" Json.asReal?
  let columns ← required fields "col_x" (nested Columns.ofFields)
  return ⟨nodes, edges, width, height, columns⟩

def ofJson : Json → Except RecordError Layout :=
  reader ofFields

end Layout

end RenderFlow.Graph
