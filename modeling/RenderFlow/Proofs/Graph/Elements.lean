import RenderFlow.Proofs.Graph.Columns
import RenderFlow.Proofs.Graph.Packed
import RenderFlow.Proofs.Markup.Nesting

/-!
The lane of the elements. The depth of an element is where its parent links say it is, so the rows
that packing finds keep elements on one row at different depths: `packed_clear`.
-/
namespace RenderFlow

namespace Graph

theorem NodeKind.nodeId_injective {kind : NodeKind} {a b : String}
    (same : kind.nodeId a = kind.nodeId b) : a = b := by
  simpa [nodeId] using same

section ElementNode

variable (columns : Columns) (index : Nat) (e : Element)

@[simp] theorem id_elementNode :
    (elementNode columns index e).id = NodeKind.element.nodeId e.id := rfl

theorem x_elementNode :
    (elementNode columns index e).x = columns.elements.add (.ofRat (e.depth * 160)) := rfl

theorem y_elementNode :
    (elementNode columns index e).y = .ofRat (firstRow + index * NodeKind.element.rowGap) := by
  rw [elementNode]

theorem parent_elementNode :
    (elementNode columns index e).infoText? "parent_id" = parentNodeId? e := by
  have found : (elementNode columns index e).info.get? "parent_id" =
      some (.ofText? (parentNodeId? e)) := by
    simp [elementNode, Table.get?]
  rw [Node.infoText?, found]
  cases parentNodeId? e <;> rfl

@[simp] theorem props_elementNode : (elementNode columns index e).infoTexts "props" = e.props := by
  simp [elementNode, Node.infoTexts, Table.get?]

@[simp] theorem refProps_elementNode :
    (elementNode columns index e).infoTexts "ref_props" = e.refProps := by
  simp [elementNode, Node.infoTexts, Table.get?]

theorem indent_elementNode_eq :
    (elementNode columns index e).indent = .ofRat (e.depth * 160) := by
  have found : (elementNode columns index e).info.get? "depth" = some (.int e.depth) := by
    simp [elementNode, Table.get?]
  rw [Node.indent, found]
  simp only [Option.bind_some, Json.scaled?, Option.getD_some, add_zero]

variable {e}

theorem indent_elementNode {d : Nat} (deep : e.depth = d) (near : d * 160 ≤ nearby) :
    (elementNode columns index e).indent = .finite ((d * 160 : Nat) : Rat) := by
  have exact : nearby ≤ Nat.pow 2 53 := by decide
  have amount : ((d : Int) : Rat) * 160 = ((d * 160 : Nat) : Rat) := by
    push_cast
    ring
  rw [indent_elementNode_eq, deep, amount]
  exact Binary64.ofRat_natCast (by omega)

theorem atRow_elementNode_standsAt {d row : Nat} (deep : e.depth = d)
    (near : 960 + d * 160 ≤ nearby) :
    ((elementNode Columns.standard index e).atRow Columns.standard.elements row).StandsAt
      (960 + d * 160) (80 + row * 48) := by
  have exact : nearby ≤ Nat.pow 2 53 := by decide
  have base : Columns.standard.elements = .finite ((960 : Nat) : Rat) := rfl
  refine ⟨?_, rfl, rfl, rfl⟩
  rw [Node.x_atRow, base, indent_elementNode Columns.standard index deep (by omega),
    Binary64.add_natCast (by omega)]

theorem elementNode_standsAt {d : Nat} (deep : e.depth = d) (near : 960 + d * 160 ≤ nearby)
    (short : 80 + index * 48 ≤ nearby) :
    (elementNode Columns.standard index e).StandsAt (960 + d * 160) (80 + index * 48) := by
  have exact : nearby ≤ Nat.pow 2 53 := by decide
  have base : Columns.standard.elements = .finite ((960 : Nat) : Rat) := rfl
  have across : ((d : Int) : Rat) * 160 = ((d * 160 : Nat) : Rat) := by
    push_cast
    rfl
  have down : firstRow + index * NodeKind.element.rowGap = ((80 + index * 48 : Nat) : Rat) := by
    simp [firstRow, NodeKind.rowGap]
  refine ⟨?_, ?_, rfl, rfl⟩
  · rw [x_elementNode, deep, across, Binary64.ofRat_natCast (by omega), base,
      Binary64.add_natCast (by omega)]
  · rw [y_elementNode, down, Binary64.ofRat_natCast (by omega)]

end ElementNode

end Graph

open RenderFlow.Graph Hierarchy

namespace Facts

/-- The elements have ids of their own, and each is one deeper than a parent before it. -/
structure WellNested (f : Facts) : Prop where
  distinct : (f.elements.map (·.id)).Nodup
  named : ∀ e ∈ f.elements, e.id ≠ ""
  nested : Nested none 0 f.elements

def depthOf (f : Facts) (id : String) : Nat :=
  ((f.elements.find? fun e => NodeKind.element.nodeId e.id == id).map (·.depth.toNat)).getD 0

variable {f : Facts}

theorem WellNested.depth_bounds (nests : f.WellNested) {e : Element} (within : e ∈ f.elements) :
    ∃ d : Nat, e.depth = d ∧ d < f.elements.length := by
  obtain ⟨before, after, split⟩ := List.append_of_mem within
  have bounds := nests.nested.depth_bounds split
  refine ⟨e.depth.toNat, by omega, ?_⟩
  rw [split, List.length_append, List.length_cons]
  omega

theorem WellNested.depthOf_eq (nests : f.WellNested) {e : Element} (within : e ∈ f.elements) :
    (f.depthOf (NodeKind.element.nodeId e.id) : Int) = e.depth := by
  have found : (f.elements.find? fun d =>
      NodeKind.element.nodeId d.id == NodeKind.element.nodeId e.id) = some e := by
    have some_found : (f.elements.find? fun d =>
        NodeKind.element.nodeId d.id == NodeKind.element.nodeId e.id).isSome :=
      List.find?_isSome.mpr ⟨e, within, beq_self_eq_true _⟩
    obtain ⟨d, first⟩ := Option.isSome_iff_exists.mp some_found
    have named := List.find?_some first
    rw [beq_iff_eq] at named
    have same := List.inj_on_of_nodup_map nests.distinct (List.mem_of_find?_eq_some first) within
      (NodeKind.nodeId_injective named)
    rw [first, same]
  obtain ⟨d, deep, -⟩ := nests.depth_bounds within
  rw [depthOf, found, Option.map_some, Option.getD_some, deep]
  simp

theorem WellNested.exists_parent (nests : f.WellNested) {e : Element} (within : e ∈ f.elements)
    {p : String} (below : e.parentId = some p) :
    ∃ d ∈ f.elements, d.id = p ∧ e.depth = d.depth + 1 := by
  obtain ⟨before, after, split⟩ := List.append_of_mem within
  rcases nests.nested before e after split with ⟨top, -⟩ | ⟨d, earlier, hangs, deep⟩
  · rw [top] at below
    cases below
  · rw [hangs] at below
    exact ⟨d, split ▸ List.mem_append_left _ earlier, Option.some.inj below, deep⟩

variable {elements : List Node}

theorem WellNested.deeper (nests : f.WellNested) (requested : elements ⊆ f.elementNodes) :
    ∀ id, ∀ child ∈ (ofElements elements).children id, f.depthOf child = f.depthOf id + 1 := by
  intro id child hangs
  obtain ⟨n, held, rfl, linked⟩ := mem_children.mp hangs
  obtain ⟨index, short, rfl⟩ := List.mem_mapIdx.mp (requested held)
  obtain ⟨named, -⟩ := Option.filter_eq_some_iff.mp linked
  rw [parent_elementNode] at named
  obtain ⟨p, parented, rfl⟩ := Option.map_eq_some_iff.mp named
  obtain ⟨parent_eq, -⟩ := Option.filter_eq_some_iff.mp parented
  have within : f.elements[index] ∈ f.elements := List.getElem_mem short
  obtain ⟨d, held', rfl, deep⟩ := nests.exists_parent within parent_eq
  have lower := nests.depthOf_eq within
  have upper := nests.depthOf_eq held'
  rw [id_elementNode]
  omega

/-- Every element node reaches a root, so it gets a row. -/
theorem WellNested.placed (nests : f.WellNested) (requested : elements ⊆ f.elementNodes)
    {places : Places} {next : Nat}
    (fills : (ofElements elements).Fills (ofElements elements).roots 0 places next) {n : Node}
    (held : n ∈ elements) : n.id ∈ placedIds places := by
  have deeper := nests.deeper requested
  have below : ∀ id, ∀ child ∈ (ofElements elements).children id, f.depthOf id < f.depthOf child := by
    intro id child hangs
    rw [deeper id child hangs]
    exact Nat.lt_succ_self _
  obtain ⟨up, leads⟩ := exists_path below held
  obtain ⟨root, top, under⟩ := leads.under_root
  exact fills.complete top under

end Facts

end RenderFlow
