import RenderFlow.Graph.Anchor

/-!
A graph under construction. The first node with an id stays, and so does the first edge; an edge is
refused while one of its nodes is unknown and may be asked for again later.
-/
namespace RenderFlow.Graph

/-- `edgeIds` remembers the ids that an edge was given. -/
structure Builder where
  columns : Columns
  nodes : List Node := []
  edges : List Edge := []
  edgeIds : List String := []

structure Item where
  id : String
  label : String
  info : Metadata

def firstRow : Rat := 80

namespace Builder

def node? (b : Builder) (id : String) : Option Node :=
  b.nodes.find? (·.id == id)

def hasNode (b : Builder) (id : String) : Bool :=
  b.nodes.any (·.id == id)

/-- Gives the node that the builder holds under the id afterwards. -/
def addNode (b : Builder) (n : Node) : Builder × Node :=
  match b.node? n.id with
  | some held => (b, held)
  | none => ({ b with nodes := b.nodes ++ [n] }, n)

def itemNode (kind : NodeKind) (x y : Binary64) (item : Item) : Node where
  id := kind.nodeId item.id
  label := item.label
  kind := kind
  x := x
  y := y
  info := item.info

def addNodes (b : Builder) : List Node → Builder × List Node
  | [] => (b, [])
  | n :: rest =>
    let (b, held) := b.addNode n
    let (b, others) := b.addNodes rest
    (b, held :: others)

def stackColumn (b : Builder) (kind : NodeKind) (x : Binary64) (start : Rat) (items : List Item) :
    Builder × List Node :=
  b.addNodes (items.mapIdx fun index => itemNode kind x (.ofRat (start + index * kind.rowGap)))

def accepts (b : Builder) (id : String) (source target : Node) : Bool :=
  !b.edgeIds.contains id && b.hasNode source.id && b.hasNode target.id

/-- Gives the edge if it was added. The ends count with the places that they bring along. -/
def addEdge (b : Builder) (id : String) (source target : Option Node) (kind : EdgeKind)
    (label : Option String) : Builder × Option Edge :=
  match source, target with
  | some source, some target =>
    if b.accepts id source target then
      let e := Edge.between id source target kind label
      ({ b with edges := b.edges ++ [e], edgeIds := id :: b.edgeIds }, some e)
    else
      (b, none)
  | _, _ => (b, none)

def blank (columns : Columns) : Layout where
  nodes := []
  edges := []
  width := columns.elements.add 200
  height := 800
  columns := columns

def spread (b : Builder) : Layout :=
  { blank b.columns with nodes := b.nodes, edges := b.edges }

def toLayout (b : Builder) : Layout :=
  b.spread.fit

end Builder

end RenderFlow.Graph
