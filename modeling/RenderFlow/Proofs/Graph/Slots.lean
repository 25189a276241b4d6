import RenderFlow.Proofs.Graph.Anchors

/-!
The state column as a list of places. No two places are the same, every hook of the plan has one, and
pairing the states moves each state node to the last place that is meant for it: `nodes_pairStates`.
-/
namespace RenderFlow.Graph

structure Slot where
  hook : String
  onRight : Bool
  row : Nat
  name : String
deriving DecidableEq, Repr

namespace StateRow

def slots (row : Nat) : StateRow → List Slot
  | .pair holder setter => [⟨holder, false, row, "value"⟩, ⟨setter, true, row, "setter"⟩]
  | .value hook => [⟨hook, false, row, "value"⟩]
  | .function hook => [⟨hook, true, row, "function"⟩]

def slotsFrom (row : Nat) : List StateRow → List Slot
  | [] => []
  | r :: rest => r.slots row ++ slotsFrom (row + 1) rest

theorem row_of_mem_slots {row : Nat} {r : StateRow} {s : Slot} (within : s ∈ r.slots row) :
    s.row = row := by
  cases r with
  | pair value setter =>
    simp only [slots, List.mem_cons, List.not_mem_nil, or_false] at within
    rcases within with rfl | rfl <;> rfl
  | value hook => rw [List.mem_singleton.mp within]
  | function hook => rw [List.mem_singleton.mp within]

theorem row_bounds {row : Nat} {rows : List StateRow} {s : Slot}
    (within : s ∈ slotsFrom row rows) : row ≤ s.row ∧ s.row < row + rows.length := by
  induction rows generalizing row with
  | nil => cases within
  | cons r rest ih =>
    simp only [List.length_cons]
    rcases List.mem_append.mp within with first | later
    · have := row_of_mem_slots first
      omega
    · have := ih later
      omega

theorem slotsFrom_apart (row : Nat) (rows : List StateRow) :
    (slotsFrom row rows).Pairwise fun a b => a.row ≠ b.row ∨ a.onRight ≠ b.onRight := by
  induction rows generalizing row with
  | nil => exact .nil
  | cons r rest ih =>
    refine List.pairwise_append.mpr ⟨?_, ih (row + 1), ?_⟩
    · cases r <;> simp [slots]
    · intro a first b later
      have here := row_of_mem_slots first
      have below := row_bounds later
      omega

variable (called : List String)

theorem length_plan (hooks : List Hook) (taken : List String) :
    (plan called hooks taken).length ≤ hooks.length := by
  fun_induction plan called hooks taken with
  | case1 => simp
  | case2 h later taken held ih => simp only [List.length_cons]; omega
  | case3 h later taken free setter found ih => simp only [List.length_cons]; omega
  | case4 h later taken free alone ih => simp only [List.length_cons]; omega

/-- A hook has a place unless an earlier row took it. -/
theorem plan_covers (row : Nat) (hooks : List Hook) (taken : List String) :
    ∀ h ∈ hooks, h.id ∈ taken ∨ h.id ∈ (slotsFrom row (plan called hooks taken)).map (·.hook) := by
  fun_induction plan called hooks taken generalizing row with
  | case1 => simp
  | case2 first later taken held ih =>
    intro h within
    rcases List.mem_cons.mp within with rfl | after
    · exact .inl (by simpa using held)
    · exact ih row h after
  | case3 first later taken free setter found ih =>
    intro h within
    simp only [slotsFrom, slots, List.map_append, List.map_cons, List.map_nil, List.mem_append,
      List.mem_cons]
    rcases List.mem_cons.mp within with rfl | after
    · exact .inr (.inl (.inl rfl))
    · -- The setter may be met again; it has the place that this row gives it.
      rcases ih (row + 1) h after with known | placed
      · rcases List.mem_cons.mp known with same | old
        · exact .inr (.inl (.inr (.inl same)))
        · exact .inl old
      · exact .inr (.inr placed)
  | case4 first later taken free alone ih =>
    intro h within
    simp only [slotsFrom, List.map_append, List.mem_append]
    rcases List.mem_cons.mp within with rfl | after
    · refine .inr (.inl ?_)
      split <;> simp [slots]
    · exact (ih (row + 1) h after).imp id .inr

end StateRow

namespace Node

@[simp] theorem holdsHook_inSlot (hook : String) (x : Binary64) (row : Nat) (slot : String)
    (n : Node) : (n.inSlot x row slot).holdsHook hook = n.holdsHook hook := by
  rw [holdsHook, infoText?, get?_inSlot x row slot n (by decide), kind_inSlot, holdsHook, infoText?]

def isFor (s : Slot) (n : Node) : Bool :=
  n.holdsHook s.hook

def intoSlot (left right : Binary64) (s : Slot) (n : Node) : Node :=
  n.inSlot (if s.onRight then right else left) s.row s.name

def slotted (left right : Binary64) (slots : List Slot) (n : Node) : Node :=
  afterMoves isFor (intoSlot left right) slots n

variable {left right : Binary64} {slots : List Slot} {n : Node}

@[simp] theorem id_slotted : (n.slotted left right slots).id = n.id :=
  afterMoves_invariant (p := isFor) (fun s => id_inSlot _ s.row s.name) slots n

@[simp] theorem kind_slotted : (n.slotted left right slots).kind = n.kind :=
  afterMoves_invariant (p := isFor) (fun s => kind_inSlot _ s.row s.name) slots n

@[simp] theorem width_slotted : (n.slotted left right slots).width = n.width :=
  afterMoves_invariant (p := isFor) (fun s => width_inSlot _ s.row s.name) slots n

@[simp] theorem height_slotted : (n.slotted left right slots).height = n.height :=
  afterMoves_invariant (p := isFor) (fun s => height_inSlot _ s.row s.name) slots n

theorem get?_slotted {key : String} (other : key ≠ "slot") :
    (n.slotted left right slots).info.get? key = n.info.get? key :=
  afterMoves_invariant (p := isFor) (g := fun m => m.info.get? key)
    (fun s m => get?_inSlot _ s.row s.name m other) slots n

theorem slotted_slotted : (n.slotted left right slots).slotted left right slots =
    n.slotted left right slots := by
  refine afterMoves_idem (fun a b m => ?_) (fun a b m => ?_) slots n
  · exact holdsHook_inSlot _ _ _ _ m
  · exact inSlot_inSlot _ _ _ m _ _ _

theorem slotted_of_kind (other : n.kind ≠ .state) : n.slotted left right slots = n := by
  refine afterMoves_of_none ?_
  intro s _
  simp [isFor, holdsHook, other]

theorem slotted_of_mem (left right : Binary64) {hook : String} (held : n.holdsHook hook)
    (placed : hook ∈ slots.map (·.hook)) :
    ∃ s ∈ slots, n.holdsHook s.hook ∧
      (n.slotted left right slots).x = (if s.onRight then right else left) ∧
      (n.slotted left right slots).y = ((80 + s.row * 40 : Nat) : Binary64) := by
  have kept (a b : Slot) (m : Node) : isFor a (m.intoSlot left right b) = isFor a m :=
    holdsHook_inSlot _ _ _ _ m
  have concerned : ∃ s ∈ slots, isFor s n := by
    obtain ⟨s, within, rfl⟩ := List.mem_map.mp placed
    exact ⟨s, within, held⟩
  obtain ⟨before, s, after, split, meant, last⟩ := afterMoves_of_mem kept concerned
  refine ⟨s, by simp [split], meant, ?_, ?_⟩
  · rw [slotted, last]
    rfl
  · rw [slotted, last]
    rfl

end Node

/-- The id of a state node tells which hook it holds. -/
def NamesHooks (nodes : List Node) : Prop :=
  ∀ n ∈ nodes, ∀ hook, n.holdsHook hook → n.id = NodeKind.state.nodeId hook

theorem NamesHooks.map {nodes : List Node} (named : NamesHooks nodes) {g : Node → Node}
    (id : ∀ n, (g n).id = n.id) (holds : ∀ n hook, (g n).holdsHook hook = n.holdsHook hook) :
    NamesHooks (nodes.map g) := by
  intro m within hook held
  obtain ⟨n, listed, rfl⟩ := List.mem_map.mp within
  rw [holds] at held
  rw [id]
  exact named n listed hook held

namespace Layout

def stateSlots (l : Layout) (facts : Facts) : List Slot :=
  StateRow.slotsFrom 0
    (StateRow.plan facts.calledNames (facts.hooks.filter fun h => (l.stateNode? h.id).isSome) [])

theorem row_lt_of_mem_stateSlots {l : Layout} {facts : Facts} {s : Slot}
    (given : s ∈ l.stateSlots facts) : s.row < facts.hooks.length := by
  have bound := (StateRow.row_bounds given).2
  have planned := StateRow.length_plan facts.calledNames
    (facts.hooks.filter fun h => (l.stateNode? h.id).isSome) []
  have listed := List.length_filter_le (fun h : Hook => (l.stateNode? h.id).isSome) facts.hooks
  omega

theorem mem_stateSlots {l : Layout} {facts : Facts} {h : Hook} (listed : h ∈ facts.hooks) {n : Node}
    (held : n ∈ l.nodes) (holds : n.holdsHook h.id) :
    h.id ∈ (l.stateSlots facts).map (·.hook) := by
  have found : (l.stateNode? h.id).isSome :=
    List.find?_isSome.mpr ⟨n, List.mem_reverse.mpr held, holds⟩
  have covered := StateRow.plan_covers facts.calledNames 0
    (facts.hooks.filter fun h => (l.stateNode? h.id).isSome) [] h
    (List.mem_filter.mpr ⟨listed, found⟩)
  exact covered.resolve_left List.not_mem_nil

def fillSlot (left right : Binary64) (nodes : List Node) (s : Slot) : List Node :=
  updateLast (Node.isFor s) (Node.intoSlot left right s) nodes

theorem nodes_placeRow (l : Layout) (row : Nat) (r : StateRow) :
    (l.placeRow row r).nodes = (r.slots row).foldl (fillSlot l.leftSlot l.rightSlot) l.nodes ∧
      (l.placeRow row r).columns = l.columns := by
  cases r with
  | pair value setter =>
    constructor
    · exact nodes_linkStates _ value setter
    · exact columns_linkStates _ value setter
  | value hook => exact ⟨rfl, rfl⟩
  | function hook => exact ⟨rfl, rfl⟩

theorem nodes_placeRows (l : Layout) (row : Nat) (rows : List StateRow) :
    (l.placeRows row rows).nodes =
      (StateRow.slotsFrom row rows).foldl (fillSlot l.leftSlot l.rightSlot) l.nodes := by
  induction rows generalizing l row with
  | nil => rfl
  | cons r rest ih =>
    obtain ⟨nodes, columns⟩ := nodes_placeRow l row r
    rw [placeRows, ih, nodes, leftSlot, rightSlot, columns, StateRow.slotsFrom, List.foldl_append]
    rfl

theorem foldl_fillSlot_eq {nodes : List Node} (distinct : (nodeIds nodes).Nodup)
    (named : NamesHooks nodes) (left right : Binary64) (slots : List Slot) :
    slots.foldl (fillSlot left right) nodes = nodes.map (Node.slotted left right slots) := by
  have kept (a b : Slot) (m : Node) :
      Node.isFor a (m.intoSlot left right b) = Node.isFor a m :=
    Node.holdsHook_inSlot _ _ _ _ m
  have single (s : Slot) : AtMostOne (Node.isFor s) nodes :=
    atMostOne_of_distinct distinct (NodeKind.state.nodeId s.hook) fun n within meant =>
      named n within s.hook meant
  exact foldl_updateLast_eq_map kept single slots

theorem stateNode?_eq_none {l : Layout} (stateless : ¬ l.nodes.any Node.isHookState) (hook : String) :
    l.stateNode? hook = none := by
  refine List.find?_eq_none.mpr ?_
  intro n within held
  refine stateless (List.any_eq_true.mpr ⟨n, List.mem_reverse.mp within, ?_⟩)
  simp only [Node.holdsHook, Node.infoText?, Bool.and_eq_true, beq_iff_eq,
    Option.bind_eq_some_iff] at held
  obtain ⟨state, value, found, -⟩ := held
  simp only [Node.isHookState, state, beq_self_eq_true, Bool.true_and]
  exact Table.contains_of_get? found

/-- Pairing the states moves every state node to the last place that is meant for it. -/
theorem nodes_pairStates {l : Layout} (distinct : (nodeIds l.nodes).Nodup)
    (named : NamesHooks l.nodes) (facts : Facts) :
    (l.pairStates facts).nodes =
      l.nodes.map (Node.slotted l.leftSlot l.rightSlot (l.stateSlots facts)) := by
  rw [← foldl_fillSlot_eq distinct named, stateSlots, ← nodes_placeRows]
  unfold pairStates
  split
  · exact nodes_fit _
  · -- Without state nodes there is nothing to plan.
    rename_i stateless
    simp [stateNode?_eq_none stateless, StateRow.plan, placeRows]

end Layout

end RenderFlow.Graph
