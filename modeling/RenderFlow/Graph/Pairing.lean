import RenderFlow.Facts.Basic
import RenderFlow.Graph.Anchor

/-!
Rows for the state column. A value and its setter that come from one destructuring stand side by
side; any other name has a row of its own, on the right when the component calls it.
-/
namespace RenderFlow

namespace Hook

def sameStatement (a b : Hook) : Bool :=
  a.definedAt.isSome && a.definedAt == b.definedAt

/-- The first later hook that is the second name of the destructuring that this one opens. -/
def partner? (h : Hook) (later : List Hook) : Option Hook :=
  if h.origin.pattern == .array && h.origin.index == 0 then
    later.find? fun other =>
      other.origin.pattern == .array && other.origin.index == 1 && h.sameStatement other
  else
    none

end Hook

namespace Graph

inductive StateRow where
  | pair (value setter : String)
  | value (hook : String)
  | function (hook : String)
deriving DecidableEq, Repr

namespace StateRow

/-- A hook that an earlier row took as its setter has no row of its own. -/
def plan (called : List String) : List Hook → List String → List StateRow
  | [], _ => []
  | h :: later, taken =>
    if taken.contains h.id then plan called later taken
    else
      match h.partner? later with
      | some setter => .pair h.id setter.id :: plan called later (setter.id :: taken)
      | none =>
        (if called.contains h.name then .function h.id else .value h.id) :: plan called later taken

end StateRow

namespace Node

def holdsHook (id : String) (n : Node) : Bool :=
  n.kind == .state && n.infoText? "hook_id" == some id

def isHookState (n : Node) : Bool :=
  n.kind == .state && n.info.contains "hook_id"

def inSlot (x : Binary64) (row : Nat) (slot : String) (n : Node) : Node :=
  { n with
    x := x
    y := (80 + row * 40 : Nat)
    info := n.info.set "slot" (.text slot)
    written := none }

end Node

namespace Layout

def stateNode? (l : Layout) (hook : String) : Option Node :=
  l.nodes.reverse.find? (Node.holdsHook hook)

def placeState (l : Layout) (hook : String) (x : Binary64) (row : Nat) (slot : String) : Layout :=
  { l with nodes := updateLast (Node.holdsHook hook) (Node.inSlot x row slot) l.nodes }

/-- The two halves of the state column are 65 to the left and to the right of its middle. -/
def leftSlot (l : Layout) : Binary64 :=
  l.columns.states.sub 65

def rightSlot (l : Layout) : Binary64 :=
  l.columns.states.add 65

def linkStates (l : Layout) (value setter : String) : Layout :=
  match l.stateNode? value, l.stateNode? setter with
  | some source, some target =>
    let id := "link-" ++ source.id ++ "-" ++ target.id
    if l.edges.any (·.id == id) then l
    else { l with edges := l.edges ++ [Edge.between id source target .link none] }
  | _, _ => l

def placeRow (l : Layout) (row : Nat) : StateRow → Layout
  | .pair value setter =>
    let l := l.placeState value l.leftSlot row "value"
    let l := l.placeState setter l.rightSlot row "setter"
    l.linkStates value setter
  | .value hook => l.placeState hook l.leftSlot row "value"
  | .function hook => l.placeState hook l.rightSlot row "function"

def placeRows (l : Layout) (row : Nat) : List StateRow → Layout
  | [] => l
  | r :: rest => (l.placeRow row r).placeRows (row + 1) rest

def pairStates (l : Layout) (facts : Facts) : Layout :=
  if l.nodes.any Node.isHookState then
    let hooks := facts.hooks.filter fun h => (l.stateNode? h.id).isSome
    (l.placeRows 0 (StateRow.plan facts.calledNames hooks [])).refresh.fit
  else
    l

end Layout

end Graph

end RenderFlow
