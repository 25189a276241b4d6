import RenderFlow.Graph.Assembly
import RenderFlow.Proofs.Graph.Anchors
import RenderFlow.Proofs.Graph.Relations

/-!
From the first wire to the finished layout every edge meets its boxes. Nothing moves while wires are
added, and each refiner draws the edges again after its last move; where a refiner has nothing to
place, nothing has moved. Main statement: `Layout.build_edges_anchored`.
-/
namespace RenderFlow.Graph

def Wire.edge (w : Wire) : Edge :=
  .between w.id w.source w.target w.kind w.label

namespace Builder

theorem addWire_eq (b : Builder) (w : Wire) :
    b.addWire w =
      if b.accepts w.id w.source w.target then
        { b with edges := b.edges ++ [w.edge], edgeIds := w.id :: b.edgeIds }
      else b := by
  unfold addWire addEdge
  dsimp only
  split <;> rfl

@[simp] theorem nodes_addWire (b : Builder) (w : Wire) : (b.addWire w).nodes = b.nodes := by
  rw [addWire_eq]
  split <;> rfl

@[simp] theorem columns_addWire (b : Builder) (w : Wire) :
    (b.addWire w).columns = b.columns := by
  rw [addWire_eq]
  split <;> rfl

@[simp] theorem nodes_addWires (b : Builder) (wires : List Wire) :
    (b.addWires wires).nodes = b.nodes := by
  induction wires generalizing b with
  | nil => rfl
  | cons w rest ih => exact (ih (b.addWire w)).trans (nodes_addWire b w)

@[simp] theorem columns_addWires (b : Builder) (wires : List Wire) :
    (b.addWires wires).columns = b.columns := by
  induction wires generalizing b with
  | nil => rfl
  | cons w rest ih => exact (ih (b.addWire w)).trans (columns_addWire b w)

theorem anchored_addWire {b : Builder} (anchored : b.spread.Anchored) {w : Wire}
    (held : w.source ∈ b.nodes ∧ w.target ∈ b.nodes) : (b.addWire w).spread.Anchored := by
  rw [addWire_eq]
  split
  · refine ⟨anchored.distinct, ?_⟩
    intro e within
    rcases List.mem_append.mp within with old | new
    · exact anchored.ends e old
    · rw [List.mem_singleton.mp new]
      exact Edge.between_isAnchored held.1 held.2 w.id w.kind w.label
  · exact anchored

theorem anchored_addWires {b : Builder} (anchored : b.spread.Anchored) {wires : List Wire}
    (held : ∀ w ∈ wires, w.source ∈ b.nodes ∧ w.target ∈ b.nodes) :
    (b.addWires wires).spread.Anchored := by
  induction wires generalizing b with
  | nil => exact anchored
  | cons w rest ih =>
    obtain ⟨first, others⟩ := List.forall_mem_cons.mp held
    refine ih (anchored_addWire anchored first) ?_
    intro later within
    rw [nodes_addWire]
    exact others later within

theorem edges_ofFacts_inventory (f : Facts) : (Inventory.ofFacts f).builder.edges = [] := by
  rw [Inventory.builder_ofFacts, addNodes_eq]

@[simp] theorem nodes_ofFacts (f : Facts) :
    (Builder.ofFacts f).nodes = (Inventory.ofFacts f).builder.nodes :=
  nodes_addWires _ _

theorem anchored_ofFacts (f : Facts) : (Builder.ofFacts f).spread.Anchored := by
  refine anchored_addWires ⟨Inventory.distinct_ofFacts f, ?_⟩ ?_
  · intro e within
    change e ∈ (Inventory.ofFacts f).builder.edges at within
    rw [edges_ofFacts_inventory] at within
    cases within
  · intro w within
    exact (Wire.drawn_of_mem within).held (Inventory.housed_ofFacts f)

end Builder

namespace Layout

theorem anchored_ofFacts (f : Facts) : (Layout.ofFacts f).Anchored :=
  (Builder.anchored_ofFacts f).fit.pack.pairStates f

theorem isFinite_of_fault?_eq_none {f : Facts} (sound : fault? f = none) :
    ∀ e ∈ f.elements, (Binary64.ofRat (e.depth * 160 : Int)).isFinite := by
  intro e within
  by_contra far
  have own := List.findSome?_eq_none_iff.mp sound e within
  rw [Fault.ofTerm?, if_neg far] at own
  cases own

theorem isFinite_of_build {f : Facts} {l : Layout} (built : build (some f) = .ok l) :
    ∀ e ∈ f.elements, (Binary64.ofRat (e.depth * 160 : Int)).isFinite := by
  refine isFinite_of_fault?_eq_none ?_
  cases found : fault? f with
  | none => rfl
  | some fault =>
    rw [build, found] at built
    cases built

/-- Only a depth beyond all floating-point numbers stops a layout. -/
theorem build_cases (f : Facts) :
    (build (some f) = .error .tooLarge ∧
      ∃ e ∈ f.elements, (Binary64.ofRat (e.depth * 160 : Int)).isFinite = false) ∨
    build (some f) = .ok (ofFacts f) := by
  by_cases near : ∀ e ∈ f.elements, (Binary64.ofRat (e.depth * 160 : Int)).isFinite = true
  · exact .inr (build_eq_ok near)
  · left
    push Not at near
    obtain ⟨e, within, far⟩ := near
    refine ⟨?_, e, within, by simpa using far⟩
    cases found : fault? f with
    | none => exact absurd (isFinite_of_fault?_eq_none found e within) far
    | some fault =>
      obtain ⟨d, _, why⟩ := List.exists_of_findSome?_eq_some found
      rw [Fault.ofTerm?] at why
      split at why
      · cases why
      · rw [build, found, ← Option.some.inj why]
        rfl

/-- Every edge of a component's layout leaves the right middle of the one box with its source's id
and enters the left middle of the one box with its target's id, at the places where the boxes stand
in the end. -/
theorem build_edges_anchored (f : Facts) :
    (build (some f) = .error .tooLarge ∧
      ∃ e ∈ f.elements, (Binary64.ofRat (e.depth * 160 : Int)).isFinite = false) ∨
    ∃ l, build (some f) = .ok l ∧ (l.nodes.map (·.id)).Nodup ∧
      ∀ e ∈ l.edges,
        (∃ n ∈ l.nodes, n.id = e.source.nodeId ∧
          e.source.x = n.x.add n.width.half ∧ e.source.y = n.y) ∧
        ∃ n ∈ l.nodes, n.id = e.target.nodeId ∧
          e.target.x = n.x.sub n.width.half ∧ e.target.y = n.y := by
  refine (build_cases f).imp id ?_
  intro built
  have anchored := anchored_ofFacts f
  refine ⟨ofFacts f, built, anchored.distinct, ?_⟩
  intro e within
  obtain ⟨⟨source, left, leaves⟩, target, right, enters⟩ := anchored.ends e within
  rw [leaves, enters]
  exact ⟨⟨source, left, rfl, rfl, rfl⟩, target, right, rfl, rfl, rfl⟩

end Layout

end RenderFlow.Graph
