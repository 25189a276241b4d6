import RenderFlow.Graph.Packing
import RenderFlow.Graph.Pairing
import RenderFlow.Proofs.Graph.Updates

/-!
What the refiners do to one node. A new place touches neither what a node is called nor how large it
is.
-/
namespace RenderFlow.Graph

namespace Node

variable (base x : Binary64) (row : Nat) (slot : String) (n : Node)

@[simp] theorem id_atRow : (n.atRow base row).id = n.id := rfl

@[simp] theorem kind_atRow : (n.atRow base row).kind = n.kind := rfl

@[simp] theorem width_atRow : (n.atRow base row).width = n.width := rfl

theorem x_atRow : (n.atRow base row).x = base.add n.indent := rfl

@[simp] theorem id_inSlot : (n.inSlot x row slot).id = n.id := rfl

@[simp] theorem kind_inSlot : (n.inSlot x row slot).kind = n.kind := rfl

@[simp] theorem width_inSlot : (n.inSlot x row slot).width = n.width := rfl

@[simp] theorem height_inSlot : (n.inSlot x row slot).height = n.height := rfl

variable {key : String}

theorem get?_atRow (other : key ≠ "row") :
    (n.atRow base row).info.get? key = n.info.get? key := by
  rw [atRow, Table.get?_set, if_neg other]

theorem get?_inSlot (other : key ≠ "slot") :
    (n.inSlot x row slot).info.get? key = n.info.get? key := by
  rw [inSlot, Table.get?_set, if_neg other]

theorem indent_atRow : (n.atRow base row).indent = n.indent := by
  rw [indent, get?_atRow base row n (by decide), indent]

theorem atRow_atRow (other : Nat) : (n.atRow base other).atRow base row = n.atRow base row := by
  rw [atRow, indent_atRow]
  simp only [atRow, Table.set_set]

theorem inSlot_inSlot (other : Nat) (y : Binary64) (name : String) :
    (n.inSlot y other name).inSlot x row slot = n.inSlot x row slot := by
  simp only [inSlot, Table.set_set]

end Node

namespace Layout

theorem nodeIds_placeElement (base : Binary64) (nodes : List Node) (place : String × Nat) :
    nodeIds (placeElement base nodes place) = nodeIds nodes :=
  nodeIds_updateLast (Node.id_atRow base place.2) nodes

theorem nodeIds_foldl_placeElement (base : Binary64) (places : Hierarchy.Places)
    (nodes : List Node) : nodeIds (places.foldl (placeElement base) nodes) = nodeIds nodes := by
  induction places generalizing nodes with
  | nil => rfl
  | cons place rest ih => rw [List.foldl_cons, ih, nodeIds_placeElement]

theorem nodeIds_placeState (l : Layout) (hook : String) (x : Binary64) (row : Nat)
    (slot : String) : nodeIds (l.placeState hook x row slot).nodes = nodeIds l.nodes :=
  nodeIds_updateLast (Node.id_inSlot x row slot) l.nodes

theorem linkStates_eq (l : Layout) (value setter : String) :
    l.linkStates value setter = { l with edges := (l.linkStates value setter).edges } := by
  unfold linkStates
  dsimp only
  split
  · split <;> rfl
  · rfl

@[simp] theorem nodes_linkStates (l : Layout) (value setter : String) :
    (l.linkStates value setter).nodes = l.nodes := by
  rw [linkStates_eq]

@[simp] theorem columns_linkStates (l : Layout) (value setter : String) :
    (l.linkStates value setter).columns = l.columns := by
  rw [linkStates_eq]

theorem placeRow_eq (l : Layout) (row : Nat) (r : StateRow) :
    l.placeRow row r =
      { l with nodes := (l.placeRow row r).nodes, edges := (l.placeRow row r).edges } := by
  cases r with
  | pair value setter =>
    rw [placeRow, linkStates_eq]
    rfl
  | value hook => rfl
  | function hook => rfl

theorem placeRows_eq (l : Layout) (row : Nat) (rows : List StateRow) :
    l.placeRows row rows =
      { l with nodes := (l.placeRows row rows).nodes, edges := (l.placeRows row rows).edges } := by
  induction rows generalizing l row with
  | nil => rfl
  | cons r rest ih =>
    rw [placeRows, ih, placeRow_eq]

end Layout

end RenderFlow.Graph
