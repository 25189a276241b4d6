import Mathlib.Data.List.Pairwise
import Mathlib.Tactic.Ring
import RenderFlow.Proofs.Graph.Boxes
import RenderFlow.Proofs.Graph.Inventories

/-!
Where the records of a component are put first. Every column has a lane of its own, and within a lane
each node stands clear of the one above it; only state and element nodes move later.
-/
namespace RenderFlow

namespace Graph

/-- Nodes below one another, from a height on and above another one. -/
def Descends (x : Nat) : Nat → List Node → Nat → Prop
  | low, [], high => low ≤ high
  | low, n :: rest, high => ∃ y, low ≤ y ∧ n.StandsAt x y ∧ Descends x (y + 40) rest high

def ClearIn (x : Nat) (a b : Node) : Prop :=
  ∃ y v, a.StandsAt x y ∧ b.StandsAt x v ∧ (y + 40 ≤ v ∨ v + 40 ≤ y)

instance (x : Nat) : Std.Symm (ClearIn x) where
  symm := fun _ _ ⟨y, v, here, there, far⟩ => ⟨v, y, there, here, far.symm⟩

namespace Descends

variable {x low middle high : Nat} {nodes : List Node}

theorem weaken (descends : Descends x middle nodes high) (lower : low ≤ middle) :
    Descends x low nodes high := by
  cases nodes with
  | nil => exact lower.trans descends
  | cons n rest =>
    obtain ⟨y, above, stands, below⟩ := descends
    exact ⟨y, lower.trans above, stands, below⟩

theorem append {others : List Node} (first : Descends x low nodes middle)
    (second : Descends x middle others high) : Descends x low (nodes ++ others) high := by
  induction nodes generalizing low with
  | nil => exact second.weaken first
  | cons n rest ih =>
    obtain ⟨y, above, stands, below⟩ := first
    exact ⟨y, above, stands, ih below⟩

theorem widen (descends : Descends x low nodes middle) (higher : middle ≤ high) :
    Descends x low nodes high := by
  have nothing : Descends x middle [] high := higher
  simpa using descends.append nothing

theorem le (descends : Descends x low nodes high) : low ≤ high := by
  induction nodes generalizing low with
  | nil => exact descends
  | cons n rest ih =>
    obtain ⟨y, above, -, below⟩ := descends
    have := ih below
    omega

theorem stands (descends : Descends x low nodes high) :
    ∀ n ∈ nodes, ∃ y, n.StandsAt x y ∧ low ≤ y ∧ y + 40 ≤ high := by
  induction nodes generalizing low with
  | nil => simp
  | cons n rest ih =>
    obtain ⟨y, above, stands, below⟩ := descends
    intro m within
    rcases List.mem_cons.mp within with rfl | later
    · exact ⟨y, stands, above, below.le⟩
    · obtain ⟨v, there, lower, upper⟩ := ih below m later
      exact ⟨v, there, by omega, upper⟩

theorem pairwise (descends : Descends x low nodes high) :
    nodes.Pairwise fun a b => ∃ y v, a.StandsAt x y ∧ b.StandsAt x v ∧ y + 40 ≤ v := by
  induction nodes generalizing low with
  | nil => exact .nil
  | cons n rest ih =>
    obtain ⟨y, above, stands, below⟩ := descends
    refine List.pairwise_cons.mpr ⟨?_, ih below⟩
    intro m later
    obtain ⟨v, there, under, -⟩ := below.stands m later
    exact ⟨y, v, stands, there, under⟩

theorem clear (descends : Descends x low nodes high) {a b : Node} (left : a ∈ nodes)
    (right : b ∈ nodes) (other : a ≠ b) : ClearIn x a b := by
  have both : nodes.Pairwise (ClearIn x) :=
    descends.pairwise.imp fun ⟨y, v, here, there, below⟩ => ⟨y, v, here, there, .inl below⟩
  exact both.forall left right other

end Descends

theorem stacked_cons (kind : NodeKind) (x : Binary64) (start : Rat) (item : Item)
    (rest : List Item) :
    stacked kind x start (item :: rest) =
      Builder.itemNode kind x (.ofRat start) item :: stacked kind x (start + kind.rowGap) rest := by
  have first : start + ((0 : Nat) : Rat) * kind.rowGap = start := by simp
  have later (index : Nat) : start + ((index + 1 : Nat) : Rat) * kind.rowGap =
      start + kind.rowGap + index * kind.rowGap := by
    push_cast
    ring
  simp only [stacked, List.mapIdx_cons, first, later]

theorem stacked_descends (kind : NodeKind) (gap x start : Nat) (items : List Item)
    (gap_eq : kind.rowGap = gap) (wide : 40 ≤ gap)
    (near : start + items.length * gap ≤ nearby) :
    Descends x start (stacked kind (.finite x) start items) (start + items.length * gap) := by
  induction items generalizing start with
  | nil => simp [stacked, Descends]
  | cons item rest ih =>
    have length : start + (item :: rest).length * gap = start + gap + rest.length * gap := by
      rw [List.length_cons]
      ring
    rw [length] at near ⊢
    have here : Binary64.ofRat (start : Rat) = .finite start := by
      refine Binary64.ofRat_natCast ?_
      have : nearby ≤ Nat.pow 2 53 := by decide
      omega
    have below := ih (start + gap) near
    rw [stacked_cons, here, gap_eq, ← Nat.cast_add]
    exact ⟨start, le_refl _, ⟨rfl, rfl, rfl, rfl⟩, below.weaken (by omega)⟩

inductive Lane where
  | inputs
  | states
  | derived
  | effects
  | elements
deriving DecidableEq, Repr

def NodeKind.lane : NodeKind → Lane
  | .independent | .prop => .inputs
  | .state => .states
  | .variable => .derived
  | .sideEffect | .external => .effects
  | .element => .elements

def Lane.Spans : Lane → Nat → Prop
  | .inputs, x => x = 80
  | .states, x => x = 235 ∨ x = 365
  | .derived, x => x = 520
  | .effects, x => x = 740
  | .elements, x => 960 ≤ x

theorem Lane.Spans.far {a b : Lane} {x u : Nat} (left : a.Spans x) (right : b.Spans u)
    (other : a ≠ b) : x + 120 < u ∨ u + 120 < x := by
  cases a <;> cases b <;> first
    | exact absurd rfl other
    | (simp only [Spans] at left right; omega)

def Lane.across : Lane → Nat
  | .inputs => 80
  | .states => 300
  | .derived => 520
  | .effects => 740
  | .elements => 960

theorem Lane.across_le (a : Lane) : a.across ≤ nearby := by
  cases a <;> decide

theorem Lane.spans_across {a : Lane} (moves : a ≠ .states) : a.Spans a.across := by
  cases a <;> simp [Spans, across] at moves ⊢

theorem Lane.Spans.le {a : Lane} {x : Nat} (spans : a.Spans x) : 60 ≤ x := by
  cases a <;> simp only [Spans] at spans <;> omega

end Graph

namespace Facts

open RenderFlow.Graph

variable (f : Facts)

def recordCount : Nat :=
  f.hooks.length + f.props.length + f.effects.length + f.callbacks.length + f.locals.length
    + f.externalCalls.length + f.elements.length

def laneNodes : Lane → List Node
  | .inputs => f.refNodes ++ f.propNodes
  | .states => f.stateNodes
  | .derived => f.variableNodes
  | .effects => f.sideEffectNodes ++ f.externalNodes
  | .elements => f.elementNodes

theorem mem_laneNodes {n : Node} (requested : n ∈ f.requestedNodes) :
    n ∈ f.laneNodes n.kind.lane := by
  simp only [requestedNodes, List.mem_append] at requested
  rcases requested with (((((ref | prop) | state) | derived) | effect) | external) | element
  · rw [kind_of_mem_stacked ref]
    exact List.mem_append_left _ ref
  · rw [kind_of_mem_stacked prop]
    exact List.mem_append_right _ prop
  · rw [kind_of_mem_stacked state]
    exact state
  · rw [kind_of_mem_stacked derived]
    exact derived
  · rw [kind_of_mem_stacked effect]
    exact List.mem_append_left _ effect
  · rw [kind_of_mem_stacked external]
    exact List.mem_append_right _ external
  · rw [f.kind_of_mem_elementNodes element]
    exact element

variable {f}

theorem length_refItems_le : f.refItems.length ≤ f.hooks.length := by
  simpa [refItems] using List.length_filter_le _ f.hooks

theorem length_stateItems_le : f.stateItems.length ≤ f.hooks.length := by
  simpa [stateItems] using List.length_filter_le _ f.hooks

theorem length_variableItems_le : f.variableItems.length ≤ f.hooks.length + f.locals.length := by
  simpa [variableItems] using List.length_filter_le _ f.hooks

theorem length_sideEffectItems : f.sideEffectItems.length = f.effects.length + f.callbacks.length := by
  simp [sideEffectItems]

/-- So many records keep every column within exact places. -/
def Modest (f : Facts) : Prop :=
  f.recordCount ≤ 2 ^ 40

theorem descends_inputs (modest : f.Modest) :
    Descends 80 80 (f.laneNodes .inputs) (80 + (f.refItems.length + f.props.length) * 50) := by
  have refs_le := f.length_refItems_le
  have near : 80 + (f.refItems.length + f.props.length) * 50 ≤ nearby := by
    simp only [Modest, recordCount, nearby] at modest ⊢
    omega
  have refs := stacked_descends .independent 50 80 80 f.refItems rfl (by omega) (by omega)
  have props := stacked_descends .prop 50 80 (80 + f.refItems.length * 50) (f.props.map .ofProp) rfl
    (by omega) (by rw [List.length_map]; omega)
  have start : firstRow + f.refItems.length * NodeKind.independent.rowGap =
      ((80 + f.refItems.length * 50 : Nat) : Rat) := by
    simp [firstRow, NodeKind.rowGap]
  have both := refs.append props
  rw [← start, List.length_map, Nat.add_assoc, ← Nat.add_mul] at both
  exact both

theorem descends_states (modest : f.Modest) :
    Descends 300 80 (f.laneNodes .states) (80 + f.stateItems.length * 40) := by
  have states_le := f.length_stateItems_le
  refine stacked_descends .state 40 300 80 f.stateItems rfl (by omega) ?_
  simp only [Modest, recordCount, nearby] at modest ⊢
  omega

theorem descends_derived (modest : f.Modest) :
    Descends 520 80 (f.laneNodes .derived) (80 + f.variableItems.length * 40) := by
  have variables_le := f.length_variableItems_le
  refine stacked_descends .variable 40 520 80 f.variableItems rfl (by omega) ?_
  simp only [Modest, recordCount, nearby] at modest ⊢
  omega

/-- Network calls begin a free row below the side effects. -/
theorem descends_effects (modest : f.Modest) :
    Descends 740 80 (f.laneNodes .effects)
      (80 + (f.sideEffectItems.length + 1 + f.externalCalls.length) * 40) := by
  have effects_eq := f.length_sideEffectItems
  have near : 80 + (f.sideEffectItems.length + 1 + f.externalCalls.length) * 40 ≤ nearby := by
    simp only [Modest, recordCount, nearby] at modest ⊢
    omega
  have effects := stacked_descends .sideEffect 40 740 80 f.sideEffectItems rfl (by omega) (by omega)
  have calls := stacked_descends .external 40 740 (80 + (f.sideEffectItems.length + 1) * 40)
    (f.externalCalls.map .ofExternalCall) rfl (by omega) (by rw [List.length_map]; omega)
  have start : firstRow + (f.sideEffectItems.length + 1) * NodeKind.sideEffect.rowGap =
      ((80 + (f.sideEffectItems.length + 1) * 40 : Nat) : Rat) := by
    simp [firstRow, NodeKind.rowGap]
  -- The row between the two kinds stays free.
  have free : 80 + f.sideEffectItems.length * 40 ≤ 80 + (f.sideEffectItems.length + 1) * 40 := by
    omega
  have both := effects.append (calls.weaken free)
  rw [← start, List.length_map, Nat.add_assoc, ← Nat.add_mul] at both
  exact both

theorem descends_lane (modest : f.Modest) {lane : Lane} (column : lane ≠ .elements) :
    Descends lane.across 80 (f.laneNodes lane) nearby := by
  have refs_le := f.length_refItems_le
  have states_le := f.length_stateItems_le
  have variables_le := f.length_variableItems_le
  have effects_eq := f.length_sideEffectItems
  have limit := modest
  simp only [Modest, recordCount] at limit
  cases lane with
  | inputs =>
    refine (descends_inputs modest).widen ?_
    simp only [nearby]
    omega
  | states =>
    refine (descends_states modest).widen ?_
    simp only [nearby]
    omega
  | derived =>
    refine (descends_derived modest).widen ?_
    simp only [nearby]
    omega
  | effects =>
    refine (descends_effects modest).widen ?_
    simp only [nearby]
    omega
  | elements => exact absurd rfl column

end Facts

end RenderFlow
