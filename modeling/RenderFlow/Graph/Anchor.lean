import RenderFlow.Binary64
import RenderFlow.Graph.Basic

/-!
Where edges meet boxes, and how large the canvas has to be. An edge leaves the right middle of its
source and enters the left middle of its target.
-/
namespace RenderFlow.Graph

namespace Node

def outlet (n : Node) : Endpoint :=
  ⟨n.id, n.x.add n.width.half, n.y⟩

def inlet (n : Node) : Endpoint :=
  ⟨n.id, n.x.sub n.width.half, n.y⟩

end Node

namespace Edge

def between (id : String) (source target : Node) (kind : EdgeKind) (label : Option String) : Edge :=
  ⟨id, source.outlet, target.inlet, kind, label⟩

/-- The edge at the present places of its nodes; it stays as it is while one of them is unknown. -/
def refreshed (nodes : List Node) (e : Edge) : Edge :=
  match lastNode? nodes e.source.nodeId, lastNode? nodes e.target.nodeId with
  | some source, some target => between e.id source target e.kind e.label
  | _, _ => e

end Edge

/-- The larger of two lengths. The first one stays where they cannot be compared. -/
def atLeast (a b : Binary64) : Binary64 :=
  if a.isLess b then b else a

def canvasMargin : Binary64 := 120

namespace Layout

def refresh (l : Layout) : Layout :=
  { l with edges := l.edges.map (Edge.refreshed l.nodes) }

def reach (place size : Binary64) : Binary64 :=
  (place.add size.half).add canvasMargin

def widenFor (l : Layout) (n : Node) : Layout :=
  { l with width := atLeast l.width (reach n.x n.width) }

def heightenFor (l : Layout) (n : Node) : Layout :=
  { l with height := atLeast l.height (reach n.y n.height) }

def growFor (l : Layout) (n : Node) : Layout :=
  (l.widenFor n).heightenFor n

/-- Grows the canvas until every box has its margin; it never shrinks. -/
def fit (l : Layout) : Layout :=
  l.nodes.foldl growFor l

end Layout

end RenderFlow.Graph
