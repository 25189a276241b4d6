import RenderFlow.Graph.Attempt
import RenderFlow.Graph.Builder
import RenderFlow.Graph.Json
import RenderFlow.Json.Spelling

/-!
What a builder is asked for in values that nobody has looked at yet. Each value is read only when it
is needed, so a request that asks for nothing is never refused.
-/
namespace RenderFlow.Graph

namespace Request

/-- What is gone through item by item: a list, the characters of a text or the names of fields. -/
def sequence : Json → Except Fault (List Json)
  | .list items => .ok items
  | .text s => .ok (s.toList.map fun c => .text (String.ofList [c]))
  | .object fields => .ok (fields.map fun field => .text field.1)
  | _ => .error .notASequence

/-- A request is made into rows before the builder sees any of it, so an item that is no sequence leaves
no node behind. The builder itself takes row by row and keeps what it placed before a refused one. -/
def rows (items : Json) : Except Fault (List (List Json)) := do
  (← sequence items).mapM sequence

def entry (item : Json) : Except Fault (Json × Json) := do
  match ← sequence item with
  | [key, value] =>
    Fault.refuse (Fault.ofId? key)
    return (key, value)
  | _ => throw .wrongCount

def entriesOf : List Json → List (Json × Json) × Option Fault
  | [] => ([], none)
  | item :: rest =>
    match entry item with
    | .ok e =>
      let (others, fault) := entriesOf rest
      (e :: others, fault)
    | .error fault => ([], some fault)

/-- The entries that a value adds to the metadata: the fields of an object, or a sequence of
pairs up to the first item that is none. -/
def entries : Json → List (Json × Json) × Option Fault
  | .object fields => (fields.map fun field => (.text field.1, field.2), none)
  | j =>
    match sequence j with
    | .ok items => entriesOf items
    | .error fault => ([], some fault)

def part (value : Option α) : Except Fault α :=
  match value with
  | some a => .ok a
  | none => .error .mistyped

end Request

structure ColumnRequest where
  kind : Json
  x : Json
  start : Json := .int 80
  items : Json

namespace ColumnRequest

def nodeKind (r : ColumnRequest) : Except Fault NodeKind := do
  Fault.refuse (Fault.ofId? r.kind)
  match r.kind.asNamed? NodeKind.ofName? with
  | some kind => return kind
  | none => throw .unknownKind

def height (r : ColumnRequest) (below : Rat) : Except Fault Binary64 :=
  match r.start.scaled? 1 below with
  | some y => .ok y
  | none => .error .notANumber

def heightFault? (r : ColumnRequest) (y : Binary64) : Option Fault :=
  match r.start with
  | .int _ => if y.isFinite then none else some .mistyped
  | _ => none

def node (r : ColumnRequest) (index : Nat) (row : List Json) : Except Fault Node := do
  match row with
  | [id, label, info] =>
    let kind ← r.nodeKind
    let y ← r.height (index * kind.rowGap)
    Fault.refuse (r.heightFault? y)
    let label ← Request.part label.asText?
    let x ← Request.part r.x.asReal?
    let info ← Request.part info.asFields?
    return Builder.itemNode kind x y ⟨id.spelled, label, Table.setAll {} info⟩
  | _ => throw .wrongCount

end ColumnRequest

structure EdgeRequest where
  id : Json
  source : Option Node
  target : Option Node
  kind : Json
  label : Json

namespace Builder

def stackRows (b : Builder) (r : ColumnRequest) (index : Nat) :
    List (List Json) → Builder × Except Fault (List Node)
  | [] => (b, .ok [])
  | row :: rest =>
    match r.node index row with
    | .ok n =>
      let (b, held) := b.addNode n
      let (b, others) := b.stackRows r (index + 1) rest
      (b, others.map (held :: ·))
    | .error fault => (b, .error fault)

def stackRequest (b : Builder) (r : ColumnRequest) : Builder × Except Fault (List Node) :=
  match Request.rows r.items with
  | .ok rows => b.stackRows r 0 rows
  | .error fault => (b, .error fault)

def endNode? (b : Builder) : Json → Except Fault (Option Node)
  | .object fields =>
    match Node.ofFields fields with
    | .ok n => .ok (some n)
    | .error _ => .error .mistyped
  | .list _ => .error .notAnId
  | .text id => .ok (b.node? id)
  | _ => .ok none

def takesUp (b : Builder) (id : Json) (source target : Node) : Bool :=
  !(id.asText?.any b.edgeIds.contains) && b.hasNode source.id && b.hasNode target.id

/-- Gives the edge if it was added. An edge whose ends are not known is not looked at further. -/
def edgeRequest (b : Builder) (r : EdgeRequest) : Except Fault (Builder × Option Edge) :=
  match r.source, r.target with
  | some source, some target => do
    Fault.refuse (Fault.ofId? r.id)
    if b.takesUp r.id source target then
      Fault.refuse (Edge.fault? source target)
      let id ← Request.part r.id.asText?
      let kind ← Request.part (r.kind.asNamed? EdgeKind.ofName?)
      let label ← Request.part (r.label.asNullable? Json.asText?)
      return b.addEdge id (some source) (some target) kind label
    else return (b, none)
  | _, _ => return (b, none)

end Builder

end RenderFlow.Graph
