import RenderFlow.Graph.Request

/-!
A builder together with a layout that is worked on while the builder goes on. A builder never drops
a node, so a layout taken from it remembers only how many nodes it shows: those stay with the
builder, and a move seen in one of the two is seen in the other. Edges are copied. A step that is
refused halfway leaves what it did before; `take_eq` says that nothing is refused where no place was
set by hand.
-/
namespace RenderFlow.Graph

structure Canvas where
  edges : List Edge
  width : Binary64
  height : Binary64
  columns : Columns

namespace Canvas

def ofLayout (l : Layout) : Canvas :=
  ⟨l.edges, l.width, l.height, l.columns⟩

def layout (c : Canvas) (nodes : List Node) : Layout :=
  ⟨nodes, c.edges, c.width, c.height, c.columns⟩

@[simp] theorem layout_ofLayout (l : Layout) : (ofLayout l).layout l.nodes = l := rfl

end Canvas

/-- The layout at hand: none, the first nodes of the builder, or one with nodes of its own. -/
inductive Draft where
  | absent
  | shared (count : Nat) (canvas : Canvas)
  | own (layout : Layout)

structure Session where
  builder : Builder
  draft : Draft := .absent

namespace Session

def start : Session where
  builder := { columns := .standard }

def layout? (s : Session) : Option Layout :=
  match s.draft with
  | .absent => none
  | .shared count canvas => some (canvas.layout (s.builder.nodes.take count))
  | .own layout => some layout

def share (s : Session) (l : Layout) : Session :=
  { s with draft := .shared l.nodes.length (.ofLayout l) }

/-- Takes a new layout from the builder. If its canvas cannot be fitted, the layout at hand stays. -/
def take (s : Session) : Session × Option Fault :=
  match Attempt.fit.run s.builder.spread with
  | .ok _ l => (s.share l, none)
  | .error fault _ => (s, some fault)

theorem take_eq {s : Session} (unwritten : s.builder.spread.Unwritten) :
    s.take = (s.share s.builder.toLayout, none) := by
  rw [take, Attempt.run_fit unwritten]
  rfl

def load (s : Session) (l : Layout) : Session :=
  { s with draft := .own l }

def keep (s : Session) (l : Layout) : Session :=
  match s.draft with
  | .absent => s
  | .shared count _ =>
    { builder := { s.builder with nodes := l.nodes ++ s.builder.nodes.drop count }
      draft := .shared count (.ofLayout l) }
  | .own _ => { s with draft := .own l }

def revise (s : Session) (step : Attempt) : Session × Option Fault :=
  match s.layout? with
  | none => (s, some .noLayout)
  | some l =>
    match step.run l with
    | .ok _ l => (s.keep l, none)
    | .error fault l => (s.keep l, some fault)

def hasId (id : Json) (n : Node) : Bool :=
  id.asText? == some n.id

def reviseNode (s : Session) (id : Json) (f : Node → Node) (fault : Option Fault) :
    Session × Option Fault :=
  s.revise do
    let l ← get
    if l.nodes.any (hasId id) then
      set { l with nodes := updateFirst (hasId id) f l.nodes }
      Fault.refuse fault
    else throw .unknownNode

def move (s : Session) (id x y : Json) : Session × Option Fault :=
  s.reviseNode id (Node.moved x y) none

def addInfo (s : Session) (id info : Json) : Session × Option Fault :=
  let (entries, fault) := Request.entries info
  s.reviseNode id (Node.setAllInfo · entries) fault

def addNode (s : Session) (n : Node) : Session × Node :=
  let (b, held) := s.builder.addNode n
  ({ s with builder := b }, held)

def stackColumn (s : Session) (r : ColumnRequest) : Session × Except Fault (List Node) :=
  let (b, held) := s.builder.stackRequest r
  ({ s with builder := b }, held)

def addEdge (s : Session) (r : EdgeRequest) : Except Fault (Session × Option Edge) := do
  let (b, e) ← s.builder.edgeRequest r
  return ({ s with builder := b }, e)

end Session

end RenderFlow.Graph
