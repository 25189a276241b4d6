import RenderFlow.Proofs.Graph.Anchors
import RenderFlow.Proofs.Graph.Filling

/-!
A layout after its elements were packed. `exists_nodes_pack` says where every node stands, whatever
the links between the elements are.
-/
namespace RenderFlow.Graph

open Hierarchy

namespace Node

def isMeant (place : String × Nat) (n : Node) : Bool :=
  n.isElement && n.id == place.1

theorem isMeant_atRow (base : Binary64) (place other : String × Nat) (n : Node) :
    (n.atRow base other.2).isMeant place = n.isMeant place := rfl

def packed (base : Binary64) (places : Places) (n : Node) : Node :=
  afterMoves isMeant (fun place => atRow base place.2) places n

variable {base : Binary64} {places : Places} {n : Node}

theorem packed_of_not_isElement (other : ¬ n.isElement) : n.packed base places = n := by
  refine afterMoves_of_none ?_
  intro place _
  simp [isMeant, other]

theorem packed_of_not_mem (unplaced : n.id ∉ placedIds places) : n.packed base places = n := by
  refine afterMoves_of_none ?_
  intro place within meant
  simp only [isMeant, Bool.and_eq_true, beq_iff_eq] at meant
  rw [meant.2] at unplaced
  exact unplaced (List.mem_map_of_mem within)

theorem packed_of_mem (base : Binary64) (nodup : (placedIds places).Nodup) (element : n.isElement)
    (placed : n.id ∈ placedIds places) :
    ∃ row, (n.id, row) ∈ places ∧ n.packed base places = n.atRow base row := by
  have concerned : ∃ place ∈ places, n.isMeant place := by
    obtain ⟨place, within, named⟩ := List.mem_map.mp placed
    exact ⟨place, within, by simp [isMeant, element, named]⟩
  obtain ⟨before, place, after, split, meant, last⟩ :=
    afterMoves_of_mem (p := isMeant) (f := fun place => atRow base place.2) (isMeant_atRow base)
      concerned
  have named : n.id = place.1 := by
    simp only [isMeant, element, Bool.true_and, beq_iff_eq] at meant
    exact meant
  -- An id has one place only, so no earlier place was meant for the node.
  have untouched : n.packed base before = n := by
    refine afterMoves_of_none ?_
    intro other within meant
    simp only [isMeant, element, Bool.true_and, beq_iff_eq] at meant
    rw [split, placedIds, List.map_append, List.map_cons] at nodup
    have apart := List.disjoint_of_nodup_append nodup
    refine apart (List.mem_map_of_mem within) ?_
    rw [← meant, named]
    exact List.mem_cons_self
  refine ⟨place.2, ?_, ?_⟩
  · rw [split, named]
    simp
  · change afterMoves isMeant _ places n = _
    rw [last]
    exact congrArg (atRow base place.2) untouched

@[simp] theorem id_packed : (n.packed base places).id = n.id :=
  afterMoves_invariant (p := isMeant) (fun place => id_atRow base place.2) places n

@[simp] theorem kind_packed : (n.packed base places).kind = n.kind :=
  afterMoves_invariant (p := isMeant) (fun place => kind_atRow base place.2) places n

theorem get?_packed {key : String} (other : key ≠ "row") :
    (n.packed base places).info.get? key = n.info.get? key :=
  afterMoves_invariant (p := isMeant) (g := fun m => m.info.get? key)
    (fun place m => get?_atRow base place.2 m other) places n

@[simp] theorem holdsHook_packed (hook : String) :
    (n.packed base places).holdsHook hook = n.holdsHook hook := by
  rw [holdsHook, infoText?, get?_packed (by decide), kind_packed, holdsHook, infoText?]

theorem packed_packed : (n.packed base places).packed base places = n.packed base places :=
  afterMoves_idem (isMeant_atRow base) (fun a b m => atRow_atRow base a.2 m b.2) places n

end Node

namespace Layout

/-- Other nodes may share the id of an element: a place is meant for elements only. -/
theorem foldl_placeElement_eq {nodes : List Node}
    (distinct : (nodeIds (nodes.filter Node.isElement)).Nodup) (base : Binary64) (places : Places) :
    places.foldl (placeElement base) nodes = nodes.map (Node.packed base places) := by
  have single (place : String × Nat) : AtMostOne (Node.isMeant place) nodes := by
    have apart := List.pairwise_filter.mp (List.pairwise_map.mp distinct)
    refine apart.imp fun {a b} apart left right => ?_
    simp only [Node.isMeant, Bool.and_eq_true, beq_iff_eq] at left right
    exact apart left.1 right.1 (left.2.trans right.2.symm)
  exact foldl_updateLast_eq_map (Node.isMeant_atRow base) single places

def elements (l : Layout) : List Node :=
  l.nodes.filter Node.isElement

theorem distinct_elements {l : Layout} (distinct : (nodeIds l.nodes).Nodup) :
    (nodeIds l.elements).Nodup :=
  distinct.sublist (List.filter_sublist.map _)

def places (l : Layout) : Places :=
  (rows? l.elements).getD []

theorem nodes_pack {l : Layout} (distinct : (nodeIds l.nodes).Nodup) :
    l.pack.nodes = l.nodes.map (Node.packed l.columns.elements l.places) := by
  unfold Layout.pack
  dsimp only
  split
  · rename_i empty
    have noElement : ∀ n ∈ l.nodes, ¬ n.isElement := by
      intro n within element
      have held : n ∈ l.nodes.filter Node.isElement := List.mem_filter.mpr ⟨within, element⟩
      rw [List.isEmpty_iff.mp empty] at held
      cases held
    have still : l.nodes.map (Node.packed l.columns.elements l.places) = l.nodes.map id :=
      List.map_congr_left fun n within => Node.packed_of_not_isElement (noElement n within)
    rw [still, List.map_id]
  · rw [places, elements]
    split
    · rename_i places found
      rw [found, ← foldl_placeElement_eq (distinct_elements distinct)]
      exact nodes_fit _
    · rename_i found
      rw [found]
      exact l.nodes.map_id.symm

/-- Packing moves every element that is below a root to the row that it fills, and nothing else. -/
theorem exists_nodes_pack {l : Layout} (distinct : (nodeIds l.nodes).Nodup) :
    ∃ places next,
      (ofElements l.elements).Fills (ofElements l.elements).roots 0 places next ∧
      (placedIds places).Nodup ∧
      l.pack.nodes = l.nodes.map (Node.packed l.columns.elements places) := by
  have apart := distinct_elements distinct
  obtain ⟨places, next, rows, fills⟩ := exists_rows? apart
  have forest := isForest_ofElements apart
  have nodup := fills.nodup forest .nil (List.Subset.refl _) (forest.distinct [])
  have found : l.places = places := by rw [Layout.places, rows, Option.getD_some]
  exact ⟨places, next, fills, nodup, found ▸ nodes_pack distinct⟩

end Layout

end RenderFlow.Graph
