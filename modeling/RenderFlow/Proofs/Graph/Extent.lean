import RenderFlow.Proofs.Graph.Separation

/-!
How large the canvas is. It never shrinks, so it also has room for the places where elements and states
stood before they were moved; these are never further to the right, but they can be further down.
Main statement: `Layout.build_canvas`.
-/
namespace RenderFlow

namespace Binary64

variable {a b c : Binary64} {xs ys : List Binary64}

theorem isLess_self (a : Binary64) : a.isLess a = false := by
  cases a with
  | finite a => simp [isLess]
  | infinite negative => cases negative <;> rfl
  | nan => rfl

theorem isLess_trans (left : a.isLess b) (right : b.isLess c) : a.isLess c := by
  cases a <;> cases b <;> cases c <;> simp_all [isLess]
  exact left.trans right

theorem eq_of_isLess_eq_false (number : a ≠ .nan) (other : b ≠ .nan) (left : a.isLess b = false)
    (right : b.isLess a = false) : a = b := by
  cases a <;> cases b <;> simp_all [isLess]
  case finite.finite => exact le_antisymm right left
  case infinite.infinite => exact Bool.eq_iff_iff.mpr ⟨left, right⟩

/-- One of some numbers that none of them exceeds. -/
def IsLargest (a : Binary64) (xs : List Binary64) : Prop :=
  a ∈ xs ∧ ∀ b ∈ xs, a.isLess b = false

instance (a : Binary64) (xs : List Binary64) : Decidable (a.IsLargest xs) :=
  inferInstanceAs (Decidable (_ ∧ _))

namespace IsLargest

theorem singleton (a : Binary64) : a.IsLargest [a] :=
  ⟨List.mem_singleton_self a, fun _ within => List.mem_singleton.mp within ▸ isLess_self a⟩

theorem congr (largest : a.IsLargest xs) (same : ∀ b, b ∈ ys ↔ b ∈ xs) : a.IsLargest ys :=
  ⟨(same a).mpr largest.1, fun b within => largest.2 b ((same b).mp within)⟩

theorem narrow (largest : a.IsLargest xs) (fewer : ys ⊆ xs)
    (exceeded : ∀ b ∈ xs, b ∈ ys ∨ ∃ c ∈ ys, b.isLess c) : a.IsLargest ys := by
  refine ⟨?_, fun b within => largest.2 b (fewer within)⟩
  rcases exceeded a largest.1 with within | ⟨c, within, less⟩
  · exact within
  · rw [largest.2 c (fewer within)] at less
    cases less

theorem atLeast (largest : a.IsLargest xs) (b : Binary64) :
    (Graph.atLeast a b).IsLargest (xs ++ [b]) := by
  unfold Graph.atLeast
  split
  · rename_i less
    refine ⟨List.mem_append_right _ (List.mem_singleton_self b), ?_⟩
    intro c within
    rcases List.mem_append.mp within with old | new
    · -- What exceeds the new number would exceed the old one.
      refine Bool.eq_false_iff.mpr fun more => ?_
      have exceeds := isLess_trans less more
      rw [largest.2 c old] at exceeds
      cases exceeds
    · exact List.mem_singleton.mp new ▸ isLess_self b
  · rename_i less
    refine ⟨List.mem_append_left _ largest.1, ?_⟩
    intro c within
    rcases List.mem_append.mp within with old | new
    · exact largest.2 c old
    · rw [List.mem_singleton.mp new]
      exact Bool.eq_false_iff.mpr less

theorem foldl_atLeast (largest : a.IsLargest xs) (ys : List Binary64) :
    (ys.foldl Graph.atLeast a).IsLargest (xs ++ ys) := by
  induction ys generalizing a xs with
  | nil => rwa [List.append_nil]
  | cons b rest ih =>
    have grown := ih (largest.atLeast b)
    rwa [List.append_assoc] at grown

theorem foldl_atLeast_eq_self (reached : ∀ b ∈ xs, a.isLess b = false) :
    xs.foldl Graph.atLeast a = a := by
  induction xs with
  | nil => rfl
  | cons b rest ih =>
    obtain ⟨first, others⟩ := List.forall_mem_cons.mp reached
    rw [List.foldl_cons, Graph.atLeast, first]
    exact ih others

theorem left_iff (largest : a.IsLargest (xs ++ ys)) (numbers : ∀ b ∈ xs ++ ys, b ≠ .nan) :
    a.IsLargest xs ↔ ∀ b ∈ ys, ∃ c ∈ xs, c.isLess b = false := by
  constructor
  · intro left b within
    exact ⟨a, left.1, largest.2 b (List.mem_append_right _ within)⟩
  · intro reached
    refine ⟨?_, fun b within => largest.2 b (List.mem_append_left _ within)⟩
    rcases List.mem_append.mp largest.1 with left | right
    · exact left
    · obtain ⟨c, within, upTo⟩ := reached a right
      have listed : c ∈ xs ++ ys := List.mem_append_left _ within
      rw [eq_of_isLess_eq_false (numbers a largest.1) (numbers c listed) (largest.2 c listed) upTo]
      exact within

theorem unique (largest : a.IsLargest xs) (other : b.IsLargest xs) (numbers : ∀ c ∈ xs, c ≠ .nan) :
    a = b :=
  eq_of_isLess_eq_false (numbers a largest.1) (numbers b other.1) (largest.2 b other.1)
    (other.2 a largest.1)

end IsLargest

theorem ofRat_ne_nan (q : Rat) : ofRat q ≠ .nan := by
  unfold ofRat
  dsimp only
  split <;> simp

theorem add_finite_ne_nan (number : a ≠ .nan) (q : Rat) : a.add (.finite q) ≠ .nan := by
  cases a with
  | finite p => exact ofRat_ne_nan (p + q)
  | infinite negative => simp [add]
  | nan => exact absurd rfl number

theorem finite_add_ne_nan (q : Rat) (number : a ≠ .nan) : (finite q).add a ≠ .nan := by
  cases a with
  | finite p => exact ofRat_ne_nan (q + p)
  | infinite negative => simp [add]
  | nan => exact absurd rfl number

end Binary64

namespace Graph

open Hierarchy

def rightEnds (nodes : List Node) : List Binary64 :=
  nodes.map fun n => Layout.reach n.x n.width

def lowerEnds (nodes : List Node) : List Binary64 :=
  nodes.map fun n => Layout.reach n.y n.height

@[simp] theorem rightEnds_append (left right : List Node) :
    rightEnds (left ++ right) = rightEnds left ++ rightEnds right :=
  List.map_append

@[simp] theorem lowerEnds_append (left right : List Node) :
    lowerEnds (left ++ right) = lowerEnds left ++ lowerEnds right :=
  List.map_append

namespace Layout

theorem width_foldl_growFor (nodes : List Node) (l : Layout) :
    (nodes.foldl growFor l).width = (rightEnds nodes).foldl atLeast l.width := by
  induction nodes generalizing l with
  | nil => rfl
  | cons n rest ih => exact ih (l.growFor n)

theorem height_foldl_growFor (nodes : List Node) (l : Layout) :
    (nodes.foldl growFor l).height = (lowerEnds nodes).foldl atLeast l.height := by
  induction nodes generalizing l with
  | nil => rfl
  | cons n rest ih => exact ih (l.growFor n)

/-- The canvas is an empty one with room for these nodes and no more. -/
structure Holds (l : Layout) (nodes : List Node) : Prop where
  columns : l.columns = .standard
  width : l.width.IsLargest (l.columns.elements.add 200 :: rightEnds nodes)
  height : l.height.IsLargest (800 :: lowerEnds nodes)

namespace Holds

variable {l m : Layout} {nodes : List Node}

theorem of_eq (holds : l.Holds nodes) (width : m.width = l.width) (height : m.height = l.height)
    (columns : m.columns = l.columns) : m.Holds nodes where
  columns := columns.trans holds.columns
  width := by
    rw [width, columns]
    exact holds.width
  height := height ▸ holds.height

theorem congr (holds : l.Holds nodes) {others : List Node} (same : ∀ n, n ∈ others ↔ n ∈ nodes) :
    l.Holds others where
  columns := holds.columns
  width := holds.width.congr fun b => by simp [rightEnds, same]
  height := holds.height.congr fun b => by simp [lowerEnds, same]

theorem fit (holds : l.Holds nodes) : l.fit.Holds (nodes ++ l.nodes) where
  columns := (columns_fit l).trans holds.columns
  width := by
    have grown := holds.width.foldl_atLeast (rightEnds l.nodes)
    rw [columns_fit, Layout.fit, width_foldl_growFor, rightEnds_append]
    exact grown
  height := by
    have grown := holds.height.foldl_atLeast (lowerEnds l.nodes)
    rw [Layout.fit, height_foldl_growFor, lowerEnds_append]
    exact grown

theorem pack (holds : l.Holds nodes) (drawn : l.nodes ⊆ nodes) :
    l.pack.Holds (nodes ++ l.pack.nodes) := by
  have still : l.Holds (nodes ++ l.nodes) :=
    holds.congr fun n => by simpa using @drawn n
  unfold Layout.pack
  dsimp only
  split
  · exact still
  · split
    · rw [nodes_fit]
      refine Holds.fit ?_
      exact holds.of_eq rfl rfl rfl
    · exact still

end Holds

theorem Holds.pairStates {l : Layout} {nodes : List Node} (holds : l.Holds nodes)
    (drawn : l.nodes ⊆ nodes) (facts : Facts) :
    (l.pairStates facts).Holds (nodes ++ (l.pairStates facts).nodes) := by
  unfold Layout.pairStates
  split
  · rw [nodes_fit]
    refine Holds.fit ?_
    rw [placeRows_eq]
    exact holds.of_eq rfl rfl rfl
  · exact holds.congr fun n => by simpa using @drawn n

theorem holds_spread {b : Builder} (columns : b.columns = .standard) : b.spread.Holds [] where
  columns := columns
  width := .singleton _
  height := .singleton _

theorem holds_unmoved (f : Facts) : (unmoved f).Holds (unmoved f).nodes := by
  have columns : (Builder.ofFacts f).columns = .standard := by
    have same := columns_unmoved f
    rw [unmoved, Builder.toLayout, columns_fit] at same
    exact same
  rw [unmoved, Builder.toLayout, nodes_fit]
  exact (holds_spread columns).fit

/-- The canvas has room for the nodes at their first places, with the elements moved, and in the
end. -/
theorem holds_ofFacts (f : Facts) :
    (ofFacts f).Holds
      ((unmoved f).nodes ++ (unmoved f).pack.nodes ++ (ofFacts f).nodes) :=
  ((holds_unmoved f).pack (List.Subset.refl _)).pairStates (List.subset_append_right _ _) f

end Layout

namespace Node

variable {base left right : Binary64} {places : Places} {slots : List Slot} {n : Node}

theorem x_packed (own : n.x = base.add n.indent) : (n.packed base places).x = n.x := by
  have stays : (n.packed base places).x = n.x ∧ (n.packed base places).indent = n.indent := by
    refine afterMoves_induction (p := isMeant) (P := fun m => m.x = n.x ∧ m.indent = n.indent)
      (fun place m stands => ?_) places ⟨rfl, rfl⟩
    exact ⟨by rw [x_atRow, stands.2, ← own], (indent_atRow base place.2 m).trans stands.2⟩
  exact stays.1

theorem width_packed : (n.packed base places).width = n.width :=
  afterMoves_invariant (p := isMeant) (fun place => width_atRow base place.2) places n

def HasHeight (n : Node) : Prop :=
  n.y ≠ .nan ∧ n.height = 32

def HasWidth (n : Node) : Prop :=
  n.x ≠ .nan ∧ n.width = 120

theorem HasHeight.packed (stands : n.HasHeight) : (n.packed base places).HasHeight :=
  afterMoves_induction (p := isMeant) (fun _ _ stands => ⟨nofun, stands.2⟩) places stands

theorem HasHeight.slotted (stands : n.HasHeight) : (n.slotted left right slots).HasHeight :=
  afterMoves_induction (p := isFor) (fun _ _ stands => ⟨nofun, stands.2⟩) slots stands

theorem HasWidth.slotted (stands : n.HasWidth) (first : left ≠ .nan) (second : right ≠ .nan) :
    (n.slotted left right slots).HasWidth := by
  refine afterMoves_induction (p := isFor) (fun s m stands => ⟨?_, stands.2⟩) slots stands
  change (if s.onRight then right else left) ≠ .nan
  split <;> assumption

theorem HasWidth.reach_ne_nan (stands : n.HasWidth) : Layout.reach n.x n.width ≠ .nan := by
  have half : (120 : Binary64).half = .finite 60 := by decide +kernel
  rw [Layout.reach, stands.2, half]
  exact Binary64.add_finite_ne_nan (Binary64.add_finite_ne_nan stands.1 60) 120

theorem HasHeight.reach_ne_nan (stands : n.HasHeight) : Layout.reach n.y n.height ≠ .nan := by
  have half : (32 : Binary64).half = .finite 16 := by decide +kernel
  rw [Layout.reach, stands.2, half]
  exact Binary64.add_finite_ne_nan (Binary64.add_finite_ne_nan stands.1 16) 120

end Node

namespace Layout

variable {f : Facts} {places : Places} {next : Nat} {n : Node}

theorem hasHeight_unmoved (held : n ∈ (unmoved f).nodes) : n.HasHeight := by
  refine Facts.forall_requestedNodes (fun _ _ y _ => ?_) (fun e _ index => ?_) n
    (requested_unmoved held)
  · refine ⟨?_, rfl⟩
    simp only [Builder.itemNode]
    exact Binary64.ofRat_ne_nan y
  · refine ⟨?_, rfl⟩
    rw [y_elementNode]
    exact Binary64.ofRat_ne_nan _

theorem hasWidth_unmoved (held : n ∈ (unmoved f).nodes) : n.HasWidth := by
  refine Facts.forall_requestedNodes (fun _ x _ _ => ⟨nofun, rfl⟩) (fun e _ index => ?_) n
    (requested_unmoved held)
  have base : Columns.standard.elements = .finite 960 := rfl
  refine ⟨?_, rfl⟩
  rw [x_elementNode, base]
  exact Binary64.finite_add_ne_nan 960 (Binary64.ofRat_ne_nan _)

theorem x_packed_unmoved (held : n ∈ (unmoved f).nodes) :
    (n.packed Columns.standard.elements places).x = n.x := by
  by_cases element : n.isElement
  · have lane := lane_unmoved held
    rw [beq_iff_eq.mp element] at lane
    obtain ⟨index, short, rfl⟩ := List.mem_mapIdx.mp lane
    refine Node.x_packed ?_
    rw [indent_elementNode_eq, x_elementNode]
  · rw [Node.packed_of_not_isElement element]

theorem packed_cases (f : Facts) (places : Places) (n : Node) :
    n.packed Columns.standard.elements places = n ∨
      n.packed Columns.standard.elements places = settle f places n := by
  by_cases element : n.isElement
  · right
    have other : (n.packed Columns.standard.elements places).kind ≠ .state := by
      rw [Node.kind_packed, beq_iff_eq.mp element]
      decide
    rw [settle, Node.slotted_of_kind other]
  · exact .inl (Node.packed_of_not_isElement element)

/-- The places that elements have after packing and before pairing add nothing. -/
theorem holds_first_last (f : Facts) :
    (ofFacts f).Holds ((unmoved f).nodes ++ (ofFacts f).nodes) := by
  obtain ⟨places, next, settles⟩ := exists_settles f
  refine (holds_ofFacts f).congr fun n => ?_
  have between : n ∈ (unmoved f).pack.nodes → n ∈ (unmoved f).nodes ∨ n ∈ (ofFacts f).nodes := by
    rw [settles.packed, settles.settled]
    intro within
    obtain ⟨m, held, rfl⟩ := List.mem_map.mp within
    rcases packed_cases f places m with still | last
    · rw [still]
      exact .inl held
    · rw [last]
      exact .inr (List.mem_map_of_mem held)
  simp only [List.mem_append]
  constructor
  · rintro (first | last)
    · exact .inl (.inl first)
    · exact .inr last
  · rintro ((first | packed) | last)
    · exact .inl first
    · exact between packed
    · exact .inr last

theorem x_settle (places : Places) (held : n ∈ (unmoved f).nodes) (other : n.kind ≠ .state) :
    (settle f places n).x = n.x ∧ (settle f places n).width = n.width := by
  have kind : (n.packed Columns.standard.elements places).kind ≠ .state := by
    rwa [Node.kind_packed]
  rw [settle, Node.slotted_of_kind kind]
  exact ⟨x_packed_unmoved held, Node.width_packed⟩

/-- What was further to the right at first than in the end still leaves the empty canvas as it is. -/
theorem rightEnd_unmoved (settles : Settles f places next) (held : n ∈ (unmoved f).nodes) :
    reach n.x n.width ∈ rightEnds (ofFacts f).nodes ∨
      (reach n.x n.width).isLess (Columns.standard.elements.add 200) := by
  by_cases state : n.kind = .state
  · right
    have lane := lane_unmoved held
    rw [state] at lane
    obtain ⟨h, -, -, y, rfl⟩ := Facts.exists_state_of_mem_stateNodes lane
    have inside : (reach Columns.standard.states 120).isLess (Columns.standard.elements.add 200) := by
      decide +kernel
    exact inside
  · left
    obtain ⟨x, width⟩ := x_settle places held state
    rw [settles.settled, ← x, ← width]
    exact List.mem_map.mpr ⟨settle f places n, List.mem_map_of_mem held, rfl⟩

theorem width_ofFacts (f : Facts) :
    (ofFacts f).width.IsLargest
      ((ofFacts f).columns.elements.add 200 :: rightEnds (ofFacts f).nodes) := by
  obtain ⟨places, next, settles⟩ := exists_settles f
  have holds := holds_first_last f
  have largest := holds.width
  rw [rightEnds_append] at largest
  refine largest.narrow ?_ ?_
  · exact List.cons_subset_cons _ (List.subset_append_right _ _)
  · intro b within
    rcases List.mem_cons.mp within with rfl | within
    · exact .inl List.mem_cons_self
    rcases List.mem_append.mp within with first | last
    · obtain ⟨n, held, rfl⟩ := List.mem_map.mp first
      rcases rightEnd_unmoved settles held with same | less
      · exact .inl (List.mem_cons_of_mem _ same)
      · rw [holds.columns]
        exact .inr ⟨_, List.mem_cons_self, less⟩
    · exact .inl (List.mem_cons_of_mem _ last)

theorem height_ofFacts (f : Facts) :
    (ofFacts f).height.IsLargest
      ((800 :: lowerEnds (ofFacts f).nodes) ++ lowerEnds (unmoved f).nodes) := by
  refine (holds_first_last f).height.congr fun b => ?_
  simp only [lowerEnds_append, List.mem_append, List.mem_cons, or_assoc]
  exact or_congr_right or_comm

theorem lowerEnd_ne_nan (f : Facts) :
    ∀ b ∈ (800 :: lowerEnds (ofFacts f).nodes) ++ lowerEnds (unmoved f).nodes, b ≠ .nan := by
  obtain ⟨places, next, settles⟩ := exists_settles f
  intro b within
  rcases List.mem_append.mp within with last | first
  · rcases List.mem_cons.mp last with rfl | last
    · nofun
    obtain ⟨n, moved, rfl⟩ := List.mem_map.mp last
    rw [settles.settled] at moved
    obtain ⟨m, held, rfl⟩ := List.mem_map.mp moved
    exact (hasHeight_unmoved held).packed.slotted.reach_ne_nan
  · obtain ⟨n, held, rfl⟩ := List.mem_map.mp first
    exact (hasHeight_unmoved held).reach_ne_nan

theorem reach_le_800 {y : Nat} (high : y ≤ 664) :
    (800 : Binary64).isLess (reach (.ofRat (y : Rat)) 32) = false := by
  have short : nearby ≤ Nat.pow 2 53 := by decide
  have near : y ≤ nearby := by
    have : 664 ≤ nearby := by decide
    omega
  have whole : (32 : Binary64) = .finite ((2 * 16 : Nat) : Rat) := rfl
  have least : (800 : Binary64) = .finite ((800 : Nat) : Rat) := rfl
  rw [Binary64.ofRat_natCast (near.trans short), whole, reach_natCast near (by decide), least]
  simp only [Binary64.isLess, Nat.cast_lt, decide_eq_false_iff_not, not_lt]
  omega

theorem lowerEnd_unmoved (settles : Settles f places next) (elements : f.elements.length ≤ 13)
    (states : f.stateItems.length ≤ 15) (held : n ∈ (unmoved f).nodes) :
    ∃ c ∈ 800 :: lowerEnds (ofFacts f).nodes, c.isLess (reach n.y n.height) = false := by
  have lane := lane_unmoved held
  by_cases state : n.kind.lane = .states
  · rw [state] at lane
    obtain ⟨index, short, rfl⟩ := List.mem_mapIdx.mp lane
    have down : firstRow + index * NodeKind.state.rowGap = ((80 + index * 40 : Nat) : Rat) := by
      simp [firstRow, NodeKind.rowGap]
    refine ⟨800, List.mem_cons_self, ?_⟩
    simp only [Builder.itemNode, down]
    exact reach_le_800 (by omega)
  by_cases element : n.kind.lane = .elements
  · rw [element] at lane
    obtain ⟨index, short, rfl⟩ := List.mem_mapIdx.mp lane
    have down : firstRow + index * NodeKind.element.rowGap = ((80 + index * 48 : Nat) : Rat) := by
      simp [firstRow, NodeKind.rowGap]
    refine ⟨800, List.mem_cons_self, ?_⟩
    rw [y_elementNode, down]
    exact reach_le_800 (by omega)
  · have still : settle f places n = n := settle_of_lane state element
    have drawn : n ∈ (ofFacts f).nodes := by
      rw [settles.settled, ← still]
      exact List.mem_map_of_mem held
    exact ⟨reach n.y n.height, List.mem_cons_of_mem _ (List.mem_map.mpr ⟨n, drawn, rfl⟩),
      Binary64.isLess_self _⟩

/-- The canvas is as wide as its empty form or the nodes in their last places ask for. For its height the
first places of the nodes count as well, so it is as high as the last places ask for only if these
reach down to all of the first ones, as they do for few elements and states. -/
theorem build_canvas (f : Facts) :
    (build (some f) = .error .tooLarge ∧
      ∃ e ∈ f.elements, (Binary64.ofRat (e.depth * 160 : Int)).isFinite = false) ∨
    ∃ l, build (some f) = .ok l ∧
      l.width.IsLargest (l.columns.elements.add 200 :: rightEnds l.nodes) ∧
      l.height.IsLargest
        ((800 :: lowerEnds l.nodes) ++ lowerEnds (Inventory.ofFacts f).builder.nodes) ∧
      (l.height.IsLargest (800 :: lowerEnds l.nodes) ↔
        ∀ b ∈ lowerEnds (Inventory.ofFacts f).builder.nodes,
          ∃ c ∈ 800 :: lowerEnds l.nodes, c.isLess b = false) ∧
      (f.elements.length ≤ 13 → f.stateItems.length ≤ 15 →
        l.height.IsLargest (800 :: lowerEnds l.nodes)) := by
  refine (build_cases f).imp id ?_
  intro built
  obtain ⟨places, next, settles⟩ := exists_settles f
  have tight := (height_ofFacts f).left_iff (lowerEnd_ne_nan f)
  rw [← nodes_unmoved]
  refine ⟨ofFacts f, built, width_ofFacts f, height_ofFacts f, tight, ?_⟩
  intro elements states
  refine tight.mpr fun b within => ?_
  obtain ⟨n, held, rfl⟩ := List.mem_map.mp within
  exact lowerEnd_unmoved settles elements states held

/-- Eight values with their setters. -/
def eightPairs : Facts where
  source := ""
  hooks := (List.range 8).flatMap fun i =>
    let opened : HookOrigin := ⟨some "react", some "useState", .array, 0⟩
    let place : Position := ⟨i + 1, 0⟩
    [⟨"hook-" ++ toString (2 * i + 1), "value", .localState, .component, some place, opened⟩,
      ⟨"hook-" ++ toString (2 * i + 2), "setter", .localState, .component, some place,
        { opened with index := 1 }⟩]

/-- Once they are paired they need half of the rows, but the canvas keeps its height. -/
theorem eightPairs_too_high :
    ∃ l, build (some eightPairs) = .ok l ∧ l.height = 816 ∧
      (800 : Binary64).IsLargest (800 :: lowerEnds l.nodes) :=
  ⟨ofFacts eightPairs, build_eq_ok nofun, by decide +kernel⟩

end Layout

end Graph

end RenderFlow
