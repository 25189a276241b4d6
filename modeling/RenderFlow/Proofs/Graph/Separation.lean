import RenderFlow.Proofs.Graph.Settling

/-!
No two boxes of a component's layout touch, and the canvas holds all of them. Two nodes are in
different lanes, or in one lane and clear of each other there; the lanes of states and elements are
clear because of the places and rows that they were given.
-/
namespace RenderFlow.Graph.Layout

open Hierarchy

variable {f : Facts} {places : Places} {next : Nat} {n : Node}

theorem leftSlot_unmoved (f : Facts) : (unmoved f).pack.leftSlot = .finite ((235 : Nat) : Rat) := by
  have exact := Binary64.add_intCast (m := 300) (n := -65) (by decide)
  rw [leftSlot, columns_pack, columns_unmoved]
  simpa [Binary64.sub, Binary64.neg, Columns.standard, OfNat.ofNat] using exact

theorem rightSlot_unmoved (f : Facts) :
    (unmoved f).pack.rightSlot = .finite ((365 : Nat) : Rat) := by
  rw [rightSlot, columns_pack, columns_unmoved]
  exact Binary64.add_natCast (m := 300) (n := 65) (by decide)

theorem settle_of_lane (state : n.kind.lane ≠ .states) (element : n.kind.lane ≠ .elements) :
    settle f places n = n := by
  have other : ¬ n.isElement := fun same => element (by rw [beq_iff_eq.mp same]; rfl)
  rw [settle, Node.packed_of_not_isElement other]
  exact Node.slotted_of_kind fun same => state (by rw [same]; rfl)

theorem packed_element (settles : Settles f places next) (nests : f.WellNested)
    (modest : f.Modest) (held : n ∈ (unmoved f).nodes) (element : n.kind = .element) :
    ∃ row, (n.id, row) ∈ places ∧ row < f.elements.length ∧ f.depthOf n.id < f.elements.length ∧
      (n.packed Columns.standard.elements places).StandsAt
        (960 + f.depthOf n.id * 160) (80 + row * 48) := by
  have isElement : n.isElement := by simp [Node.isElement, element]
  have within : n ∈ (unmoved f).elements := List.mem_filter.mpr ⟨held, isElement⟩
  have placed := nests.placed elements_unmoved_subset settles.fills within
  obtain ⟨row, given, moved⟩ :=
    Node.packed_of_mem Columns.standard.elements settles.nodup isElement placed
  obtain ⟨index, short, same⟩ := List.mem_mapIdx.mp (elements_unmoved_subset within)
  have listed : f.elements[index] ∈ f.elements := List.getElem_mem short
  obtain ⟨d, deep, less⟩ := nests.depth_bounds listed
  have depth : f.depthOf n.id = d := by
    have := nests.depthOf_eq listed
    rw [← same, id_elementNode]
    omega
  have near : 960 + d * 160 ≤ nearby := by
    simp only [Facts.Modest, Facts.recordCount, nearby] at modest ⊢
    omega
  refine ⟨row, given, settles.row_lt given, by omega, ?_⟩
  rw [moved, depth, ← same]
  exact atRow_elementNode_standsAt index deep near

theorem settle_element (settles : Settles f places next) (nests : f.WellNested)
    (modest : f.Modest) (held : n ∈ (unmoved f).nodes) (element : n.kind = .element) :
    ∃ row, (n.id, row) ∈ places ∧ row < f.elements.length ∧ f.depthOf n.id < f.elements.length ∧
      (settle f places n).StandsAt (960 + f.depthOf n.id * 160) (80 + row * 48) := by
  have still : settle f places n = n.packed Columns.standard.elements places :=
    Node.slotted_of_kind (by rw [Node.kind_packed, element]; decide)
  rw [still]
  exact packed_element settles nests modest held element

theorem settle_state (settles : Settles f places next) (modest : f.Modest)
    (held : n ∈ (unmoved f).nodes) (state : n.kind = .state) :
    ∃ s ∈ (unmoved f).pack.stateSlots f, n.id = NodeKind.state.nodeId s.hook ∧
      s.row < f.hooks.length ∧
      (settle f places n).StandsAt (if s.onRight then 365 else 235) (80 + s.row * 40) := by
  have lane := lane_unmoved held
  rw [state] at lane
  obtain ⟨h, listed, named, only⟩ := Facts.exists_hook_of_mem_stateNodes lane
  -- Packing leaves the node alone, so pairing finds it where it was put first.
  have still : n.packed Columns.standard.elements places = n :=
    Node.packed_of_not_isElement (by simp [Node.isElement, state])
  have packed : n ∈ (unmoved f).pack.nodes := by
    rw [settles.packed]
    exact List.mem_map.mpr ⟨n, held, still⟩
  have placed := mem_stateSlots listed packed ((only h.id).mpr rfl)
  obtain ⟨s, given, holds, across, down⟩ := Node.slotted_of_mem (unmoved f).pack.leftSlot
    (unmoved f).pack.rightSlot ((only h.id).mpr rfl) placed
  refine ⟨s, given, by rw [named, (only s.hook).mp holds], row_lt_of_mem_stateSlots given, ?_⟩
  obtain ⟨y, stands, -⟩ := (Facts.descends_states modest).stands n lane
  rw [settle, still]
  refine ⟨?_, down, ?_, ?_⟩
  · rw [across, leftSlot_unmoved, rightSlot_unmoved]
    split <;> rfl
  · rw [Node.width_slotted, stands.width_eq]
  · rw [Node.height_slotted, stands.height_eq]

theorem settle_spans (settles : Settles f places next) (nests : f.WellNested) (modest : f.Modest)
    (held : n ∈ (unmoved f).nodes) :
    ∃ x y, (settle f places n).StandsAt x y ∧ n.kind.lane.Spans x ∧ 80 ≤ y ∧
      x ≤ nearby ∧ y ≤ nearby := by
  have limit := modest
  simp only [Facts.Modest, Facts.recordCount] at limit
  by_cases states : n.kind.lane = .states
  · obtain ⟨s, -, -, rows, stands⟩ := settle_state settles modest held (state_of_lane states)
    refine ⟨_, _, stands, ?_, by omega, ?_, ?_⟩
    · rw [states]
      cases s.onRight <;> simp [Lane.Spans]
    · split <;> decide
    · simp only [nearby]
      omega
  by_cases elements : n.kind.lane = .elements
  · obtain ⟨row, -, rows, deep, stands⟩ :=
      settle_element settles nests modest held (element_of_lane elements)
    refine ⟨_, _, stands, ?_, by omega, ?_, ?_⟩
    · rw [elements]
      simp [Lane.Spans]
    all_goals simp only [nearby]; omega
  · rw [settle_of_lane states elements]
    obtain ⟨y, stands, low, high⟩ :=
      (Facts.descends_lane modest elements).stands n (lane_unmoved held)
    exact ⟨_, y, stands, Lane.spans_across states, low, Lane.across_le _, by omega⟩

def Clear (a b : Node) : Prop :=
  ∃ x y u v, a.StandsAt x y ∧ b.StandsAt u v ∧
    (x + 120 < u ∨ u + 120 < x ∨ y + 32 < v ∨ v + 32 < y)

theorem clear_of_clearIn {x : Nat} {a b : Node} (clear : ClearIn x a b) : Clear a b := by
  obtain ⟨y, v, here, there, far⟩ := clear
  exact ⟨x, y, x, v, here, there, by omega⟩

theorem clear_states (settles : Settles f places next) (modest : f.Modest) {a b : Node}
    (left : a ∈ (unmoved f).nodes) (right : b ∈ (unmoved f).nodes) (other : a.id ≠ b.id)
    (first : a.kind = .state) (second : b.kind = .state) :
    Clear (settle f places a) (settle f places b) := by
  obtain ⟨s, given, named, -, here⟩ := settle_state settles modest left first
  obtain ⟨t, given', named', -, there⟩ := settle_state settles modest right second
  have distinct : s ≠ t := by
    rintro rfl
    exact other (named.trans named'.symm)
  have symm : Std.Symm fun s t : Slot => s.row ≠ t.row ∨ s.onRight ≠ t.onRight :=
    ⟨fun _ _ far => far.imp Ne.symm Ne.symm⟩
  have apart := (StateRow.slotsFrom_apart 0 _).forall given given' distinct
  refine ⟨_, _, _, _, here, there, ?_⟩
  revert apart
  cases s.onRight <;> cases t.onRight <;> simp <;> omega

theorem clear_elements (settles : Settles f places next) (nests : f.WellNested) (modest : f.Modest)
    {a b : Node} (left : a ∈ (unmoved f).nodes) (right : b ∈ (unmoved f).nodes)
    (other : a.id ≠ b.id) (first : a.kind = .element) (second : b.kind = .element) :
    Clear (settle f places a) (settle f places b) := by
  obtain ⟨row, given, -, -, here⟩ := settle_element settles nests modest left first
  obtain ⟨row', given', -, -, there⟩ := settle_element settles nests modest right second
  have distinct : (a.id, row) ≠ (b.id, row') := fun same => other (congrArg Prod.fst same)
  have symm : Std.Symm fun p q : String × Nat => p.2 ≠ q.2 ∨ f.depthOf p.1 ≠ f.depthOf q.1 :=
    ⟨fun _ _ far => far.imp Ne.symm Ne.symm⟩
  -- Elements on one row are of different depths, and a depth is 160 wide.
  have rows := (settles.fills.apart (nests.deeper elements_unmoved_subset)).2.imp
    (S := fun p q => p.2 ≠ q.2 ∨ f.depthOf p.1 ≠ f.depthOf q.1) fun far => far.imp id Nat.ne_of_lt
  have apart := rows.forall given given' distinct
  refine ⟨_, _, _, _, here, there, ?_⟩
  dsimp only at apart
  omega

/-- Nodes with different ids settle clear of each other. -/
theorem settle_clear (settles : Settles f places next) (nests : f.WellNested) (modest : f.Modest)
    {a b : Node} (left : a ∈ (unmoved f).nodes) (right : b ∈ (unmoved f).nodes)
    (other : a.id ≠ b.id) : Clear (settle f places a) (settle f places b) := by
  by_cases same : a.kind.lane = b.kind.lane
  · by_cases states : a.kind.lane = .states
    · exact clear_states settles modest left right other (state_of_lane states)
        (state_of_lane (same.symm.trans states))
    by_cases elements : a.kind.lane = .elements
    · exact clear_elements settles nests modest left right other (element_of_lane elements)
        (element_of_lane (same.symm.trans elements))
    · have lane := lane_unmoved left
      have lane' := lane_unmoved right
      rw [← same] at lane'
      have different : a ≠ b := fun equal => other (congrArg Node.id equal)
      rw [settle_of_lane states elements, settle_of_lane (same ▸ states) (same ▸ elements)]
      exact clear_of_clearIn ((Facts.descends_lane modest elements).clear lane lane' different)
  · obtain ⟨x, y, here, spans, -⟩ := settle_spans settles nests modest left
    obtain ⟨u, v, there, spans', -⟩ := settle_spans settles nests modest right
    have far := spans.far spans' same
    exact ⟨x, y, u, v, here, there, by omega⟩

end RenderFlow.Graph.Layout
