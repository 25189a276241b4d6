import RenderFlow.Graph.Anchor

/-!
Rows for the element tree. A first child shares the row of its parent and every later sibling starts
below all rows of the siblings before it, so no two subtrees overlap.
-/
namespace RenderFlow.Graph

/-- Which elements hang from which, by id. An element whose parent is unknown or itself is a
root. -/
structure Hierarchy where
  roots : List String
  children : String → List String

namespace Hierarchy

def parent? (elements : List Node) (n : Node) : Option String :=
  (n.infoText? "parent_id").filter fun p => elements.any (·.id == p) && p != n.id

def ofElements (elements : List Node) : Hierarchy :=
  let links := elements.map fun n => (n.id, parent? elements n)
  { roots := (links.filter (·.2.isNone)).map (·.1)
    children := fun p => (links.filter (·.2 == some p)).map (·.1) }

/-- An element whose subtree is being placed: its row, the first row still free below it, and the
children still to place. -/
structure Frame where
  row : Nat
  next : Nat
  pending : List String

def Frame.opened (h : Hierarchy) (id : String) (row : Nat) : Frame :=
  ⟨row, row, h.children id⟩

def Frame.rows (f : Frame) : Nat :=
  max (f.next - f.row) 1

abbrev Places := List (String × Nat)

/-- The rows of the elements below the open frames, in the order of their placing and after the ones
placed so far, whose last comes first. Also tells how many rows the outermost frame takes. Only
running out of steps gives nothing. -/
def packFrames (h : Hierarchy) : Nat → Frame → List Frame → Places → Option (Places × Nat)
  | 0, _, _, _ => none
  | steps + 1, f, outer, placed =>
    match f.pending with
    | child :: more =>
      packFrames h steps (.opened h child f.next) ({ f with pending := more } :: outer)
        ((child, f.next) :: placed)
    | [] =>
      match outer with
      | [] => some (placed.reverse, f.rows)
      | parent :: outer =>
        packFrames h steps { parent with next := parent.next + f.rows } outer placed

def packRoots (h : Hierarchy) (steps row : Nat) : List String → Option Places
  | [] => some []
  | root :: rest => do
    let (placed, rows) ← packFrames h steps (.opened h root row) [] [(root, row)]
    let others ← packRoots h steps (row + rows) rest
    return placed ++ others

/-- Every path of links from a root opens and closes one frame. Without a cycle it is told by the
set of its links, of which there are at most as many as elements. -/
def stepBound (elements : List Node) : Nat :=
  Nat.pow 2 (elements.length + 1)

/-- Steps run out only where ids repeat, on links that lead round for ever. -/
def rows? (elements : List Node) : Option Places :=
  let h := ofElements elements
  packRoots h (stepBound elements) 0 h.roots

end Hierarchy

namespace Node

def indent (n : Node) : Binary64 :=
  ((n.info.get? "depth").bind (Json.scaled? 160 0)).getD 0

def atRow (base : Binary64) (row : Nat) (n : Node) : Node :=
  { n with
    x := base.add n.indent
    y := (80 + row * 48 : Nat)
    info := n.info.set "row" (.int row)
    written := none }

end Node

namespace Layout

def placeElement (base : Binary64) (nodes : List Node) (place : String × Nat) : List Node :=
  updateLast (fun n => n.isElement && n.id == place.1) (Node.atRow base place.2) nodes

/-- A layout whose elements cannot be placed in any number of steps is left as it is. -/
def pack (l : Layout) : Layout :=
  let elements := l.nodes.filter Node.isElement
  if elements.isEmpty then l
  else
    match Hierarchy.rows? elements with
    | some places =>
      { l with nodes := places.foldl (placeElement l.columns.elements) l.nodes }.refresh.fit
    | none => l

end Layout

end RenderFlow.Graph
