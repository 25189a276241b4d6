import RenderFlow.Proofs.Graph.Linking
import RenderFlow.Proofs.Graph.Mates
import RenderFlow.Proofs.Graph.Resolution
import RenderFlow.Proofs.Graph.Separation

/-!
The state column of a component with distinct hooks. Every row is that of a hook whose node stands on
it, so no row is left out, and no two nodes stand at one place. Where no two hooks have one place in
one array pattern, mates stand side by side and every other hook has its row for itself.
-/
namespace RenderFlow

open RenderFlow.Graph
open scoped List

def Facts.states (f : Facts) : List Hook :=
  f.hooks.filter (·.kind.isState)

def Facts.stateRows (f : Facts) : List StateRow :=
  StateRow.plan f.calledNames f.states []

theorem Facts.plans_stateRows (f : Facts) :
    StateRow.Plans f.calledNames f.states [] f.stateRows :=
  StateRow.plans_plan f.calledNames f.states []

def Hook.nodeId (h : Hook) : String :=
  NodeKind.state.nodeId h.id

namespace Graph

namespace StateRow

theorem map_hook_slots (row : Nat) (r : StateRow) : (r.slots row).map (·.hook) = r.hooks := by
  cases r <;> rfl

theorem map_hook_slotsFrom (row : Nat) (rows : List StateRow) :
    (slotsFrom row rows).map (·.hook) = rows.flatMap StateRow.hooks := by
  induction rows generalizing row with
  | nil => rfl
  | cons r rest ih => rw [slotsFrom, List.map_append, ih, map_hook_slots, List.flatMap_cons]

theorem slotsFrom_append (row : Nat) (before after : List StateRow) :
    slotsFrom row (before ++ after) =
      slotsFrom row before ++ slotsFrom (row + before.length) after := by
  induction before generalizing row with
  | nil => rfl
  | cons r rest ih =>
    rw [List.cons_append, slotsFrom, ih, slotsFrom, List.length_cons, List.append_assoc,
      Nat.add_assoc, Nat.add_comm 1]

theorem exists_row_of_mem_slotsFrom {row : Nat} {rows : List StateRow} {s : Slot}
    (within : s ∈ slotsFrom row rows) :
    ∃ index r, s.row = row + index ∧ rows[index]? = some r ∧ s ∈ r.slots s.row := by
  induction rows generalizing row with
  | nil => cases within
  | cons r rest ih =>
    rcases List.mem_append.mp within with here | below
    · have own := row_of_mem_slots here
      exact ⟨0, r, own, rfl, own ▸ here⟩
    · obtain ⟨index, other, own, found, held⟩ := ih below
      exact ⟨index + 1, other, by omega, found, held⟩

theorem onRight_of_mem_single {called : List String} {h : Hook} {row : Nat} {s : Slot}
    (own : s ∈ (single called h).slots row) : s.onRight = called.contains h.name := by
  unfold single at own
  split at own
  · rename_i held
    rw [List.mem_singleton.mp own, held]
  · rename_i other
    rw [List.mem_singleton.mp own, Bool.eq_false_iff.mpr other]

end StateRow

end Graph

theorem Binary64.natCast_inj {m n : Nat} : (m : Binary64) = (n : Binary64) ↔ m = n := by
  constructor
  · intro same
    exact Nat.cast_injective (Binary64.finite.inj same)
  · rintro rfl
    rfl

namespace Graph

namespace Node

structure StandsIn (n : Node) (onRight : Bool) (row : Nat) : Prop where
  across : n.x = ((if onRight then 365 else 235 : Nat) : Binary64)
  down : n.y = ((80 + row * 40 : Nat) : Binary64)

theorem StandsIn.of_halves {n : Node} {onRight : Bool} {row : Nat}
    (across : n.x = if onRight then ((365 : Nat) : Binary64) else ((235 : Nat) : Binary64))
    (down : n.y = ((80 + row * 40 : Nat) : Binary64)) : n.StandsIn onRight row := by
  refine ⟨?_, down⟩
  rw [across]
  cases onRight <;> rfl

theorem StandsIn.eq_of_place {m n : Node} {onRight onRight' : Bool} {row row' : Nat}
    (here : m.StandsIn onRight row) (there : n.StandsIn onRight' row') (across : m.x = n.x)
    (down : m.y = n.y) : onRight = onRight' ∧ row = row' := by
  rw [here.across, there.across, Binary64.natCast_inj] at across
  rw [here.down, there.down, Binary64.natCast_inj] at down
  refine ⟨?_, by omega⟩
  revert across
  cases onRight <;> cases onRight' <;> simp

@[simp] theorem holdsHook_slotted {left right : Binary64} {slots : List Slot} (hook : String)
    (n : Node) : (n.slotted left right slots).holdsHook hook = n.holdsHook hook :=
  afterMoves_invariant (p := isFor) (g := fun m => m.holdsHook hook)
    (fun s m => holdsHook_inSlot hook _ s.row s.name m) slots n

/-- Places before the last ones that are meant for a node do not matter. -/
theorem slotted_of_settled (left right : Binary64) (before : List Slot) {here after : List Slot}
    {n : Node} {hook : String} (only : ∀ other, n.holdsHook other ↔ other = hook)
    (placed : hook ∈ here.map (·.hook)) (settled : hook ∉ after.map (·.hook)) :
    ∃ s ∈ here, s.hook = hook ∧
      (n.slotted left right (before ++ (here ++ after))).x = (if s.onRight then right else left) ∧
      (n.slotted left right (before ++ (here ++ after))).y = ((80 + s.row * 40 : Nat) : Binary64) := by
  have first : (n.slotted left right before).holdsHook hook := by
    rw [holdsHook_slotted]
    exact (only hook).mpr rfl
  have last : n.slotted left right (before ++ (here ++ after)) =
      (n.slotted left right before).slotted left right here := by
    rw [slotted, afterMoves_append, afterMoves_append]
    apply afterMoves_of_none
    intro s within meant
    change ((n.slotted left right before).slotted left right here).holdsHook s.hook at meant
    rw [holdsHook_slotted, holdsHook_slotted, only] at meant
    exact settled (meant ▸ List.mem_map_of_mem within)
  rw [last]
  obtain ⟨s, within, held, across, down⟩ := slotted_of_mem left right first placed
  rw [holdsHook_slotted, only] at held
  exact ⟨s, within, held, across, down⟩

end Node

namespace Layout

variable {f : Facts} {places : Hierarchy.Places} {next : Nat}

theorem exists_hook_of_state {n : Node} (held : n ∈ (unmoved f).nodes) (state : n.kind = .state) :
    ∃ h ∈ f.states, n.id = h.nodeId ∧ ∀ hook, n.holdsHook hook ↔ hook = h.id := by
  have lane := lane_unmoved held
  rw [state] at lane
  obtain ⟨h, listed, holds, y, rfl⟩ := Facts.exists_state_of_mem_stateNodes lane
  exact ⟨h, List.mem_filter.mpr ⟨listed, holds⟩, rfl, fun hook => holdsHook_ofState⟩

section Distinct

variable (distinct : (f.hooks.map (·.id)).Nodup)

include distinct

theorem distinct_states : (f.states.map (·.id)).Nodup :=
  distinct.sublist (List.filter_sublist.map _)

theorem eq_of_id {a b : Hook} (left : a ∈ f.states) (right : b ∈ f.states) (same : a.id = b.id) :
    a = b :=
  List.inj_on_of_nodup_map (distinct_states distinct) left right same

theorem exists_state_of_hook {h : Hook} (listed : h ∈ f.states) :
    ∃ n ∈ (unmoved f).nodes, n.kind = .state ∧ n.id = h.nodeId ∧
      ∀ hook, n.holdsHook hook ↔ hook = h.id := by
  have asked : h.nodeId ∈ nodeIds f.stateNodes :=
    nodeId_mem_stacked (List.mem_map_of_mem listed : Item.ofState h ∈ f.stateItems)
  have requested : h.nodeId ∈ nodeIds f.requestedNodes := by
    obtain ⟨m, within, named⟩ := mem_nodeIds.mp asked
    refine mem_nodeIds.mpr ⟨m, ?_, named⟩
    simp only [Facts.requestedNodes, List.mem_append]
    tauto
  obtain ⟨n, held, named⟩ := mem_nodeIds.mp (Inventory.held_of_requested requested)
  have state : n.kind = .state := (Inventory.spelled_ofFacts held).kind_eq named
  rw [← nodes_unmoved] at held
  obtain ⟨k, listed', named', only⟩ := exists_hook_of_state held state
  have same : k = h :=
    eq_of_id distinct listed' listed (NodeKind.nodeId_injective (named'.symm.trans named))
  exact ⟨n, held, state, named, same ▸ only⟩

variable (settles : Settles f places next)

include settles

theorem holder?_unmoved {h : Hook} (listed : h ∈ f.hooks) :
    (unmoved f).pack.holder? h.id = if h.kind.isState then some h.nodeId else none := by
  have held_by {m : Node} (found : (unmoved f).pack.stateNode? h.id = some m) :
      ∃ n ∈ (unmoved f).nodes, n.holdsHook h.id ∧ m.id = n.id := by
    have within := mem_of_stateNode? found
    rw [settles.packed] at within
    obtain ⟨n, held, rfl⟩ := List.mem_map.mp within
    have holds := List.find?_some found
    rw [Node.holdsHook_packed] at holds
    exact ⟨n, held, holds, Node.id_packed⟩
  rw [holder?]
  split
  · rename_i state
    obtain ⟨n, held, -, -, only⟩ :=
      exists_state_of_hook distinct (List.mem_filter.mpr ⟨listed, state⟩)
    have known : ((unmoved f).pack.stateNode? h.id).isSome := by
      refine List.find?_isSome.mpr ⟨n.packed Columns.standard.elements places, ?_, ?_⟩
      · rw [List.mem_reverse, settles.packed]
        exact List.mem_map_of_mem held
      · rw [Node.holdsHook_packed]
        exact (only h.id).mpr rfl
    obtain ⟨m, found⟩ := Option.isSome_iff_exists.mp known
    obtain ⟨n', held', holds, named⟩ := held_by found
    rw [found, Option.map_some, named, namesHooks_unmoved n' held' h.id holds]
    rfl
  · rename_i stateless
    rw [Option.map_eq_none_iff]
    cases found : (unmoved f).pack.stateNode? h.id with
    | none => rfl
    | some m =>
      obtain ⟨n, held, holds, -⟩ := held_by found
      have state : n.kind = .state := by
        rw [Node.holdsHook, Bool.and_eq_true, beq_iff_eq] at holds
        exact holds.1
      obtain ⟨k, listed', -, only⟩ := exists_hook_of_state held state
      obtain ⟨listed', isState⟩ := List.mem_filter.mp listed'
      have same := List.inj_on_of_nodup_map distinct listed listed' ((only h.id).mp holds)
      rw [same] at stateless
      exact absurd isState stateless

theorem states_eq : f.hooks.filter (fun h => ((unmoved f).pack.holder? h.id).isSome) = f.states := by
  apply List.filter_congr
  intro h listed
  rw [holder?_unmoved distinct settles listed]
  cases h.kind.isState <;> rfl

theorem stateSlots_unmoved : (unmoved f).pack.stateSlots f = StateRow.slotsFrom 0 f.stateRows := by
  rw [stateSlots, Facts.stateRows, ← states_eq distinct settles]
  simp only [isSome_holder?]

theorem settle_state_eq {n : Node} (state : n.kind = .state) :
    settle f places n = n.slotted ((235 : Nat) : Binary64) ((365 : Nat) : Binary64)
      (StateRow.slotsFrom 0 f.stateRows) := by
  rw [settle, Node.packed_of_not_isElement (by simp [Node.isElement, state]), leftSlot_unmoved,
    rightSlot_unmoved, stateSlots_unmoved distinct settles]
  rfl

omit distinct in
theorem exists_unmoved {m : Node} (drawn : m ∈ (ofFacts f).nodes) (state : m.kind = .state) :
    ∃ n ∈ (unmoved f).nodes, n.kind = .state ∧ m = settle f places n := by
  rw [settles.settled] at drawn
  obtain ⟨n, held, rfl⟩ := List.mem_map.mp drawn
  exact ⟨n, held, by rwa [kind_settle] at state, rfl⟩

theorem exists_slot {m : Node} (drawn : m ∈ (ofFacts f).nodes) (state : m.kind = .state) :
    ∃ h ∈ f.states, m.id = h.nodeId ∧ ∃ s ∈ StateRow.slotsFrom 0 f.stateRows,
      s.hook = h.id ∧ m.StandsIn s.onRight s.row := by
  obtain ⟨n, held, own, rfl⟩ := exists_unmoved settles drawn state
  obtain ⟨h, listed, named, only⟩ := exists_hook_of_state held own
  have placed : h.id ∈ (StateRow.slotsFrom 0 f.stateRows).map (·.hook) :=
    (StateRow.plan_covers f.calledNames 0 f.states [] h listed).resolve_left List.not_mem_nil
  obtain ⟨s, within, holds, across, down⟩ := Node.slotted_of_mem ((235 : Nat) : Binary64)
    ((365 : Nat) : Binary64) ((only h.id).mpr rfl) placed
  refine ⟨h, listed, by rw [id_settle, named], s, within, (only s.hook).mp holds, ?_⟩
  rw [settle_state_eq distinct settles own]
  exact .of_halves across down

theorem exists_stands {before after : List StateRow} {r : StateRow}
    (split : f.stateRows = before ++ r :: after) {h : Hook} (listed : h ∈ f.states)
    (placed : h.id ∈ r.hooks) (settled : ∀ later ∈ after, h.id ∉ later.hooks) :
    ∃ m ∈ (ofFacts f).nodes, m.kind = .state ∧ m.id = h.nodeId ∧
      ∃ s ∈ r.slots before.length, s.hook = h.id ∧ m.StandsIn s.onRight before.length := by
  obtain ⟨n, held, state, named, only⟩ := exists_state_of_hook distinct listed
  have slots : StateRow.slotsFrom 0 f.stateRows = StateRow.slotsFrom 0 before ++
      (r.slots before.length ++ StateRow.slotsFrom (before.length + 1) after) := by
    rw [split, StateRow.slotsFrom_append, Nat.zero_add]
    rfl
  have here : h.id ∈ (r.slots before.length).map (·.hook) := by rwa [StateRow.map_hook_slots]
  have behind : h.id ∉ (StateRow.slotsFrom (before.length + 1) after).map (·.hook) := by
    rw [StateRow.map_hook_slotsFrom, List.mem_flatMap]
    rintro ⟨later, within, again⟩
    exact settled later within again
  obtain ⟨s, within, hook, across, down⟩ := Node.slotted_of_settled
    ((235 : Nat) : Binary64) ((365 : Nat) : Binary64) (StateRow.slotsFrom 0 before) only here behind
  refine ⟨settle f places n, ?_, by rwa [kind_settle], by rw [id_settle, named], s, within, hook, ?_⟩
  · rw [settles.settled]
    exact List.mem_map_of_mem held
  · rw [settle_state_eq distinct settles state, slots]
    rw [StateRow.row_of_mem_slots within] at down
    exact .of_halves across down

theorem states_apart {m n : Node} (left : m ∈ (ofFacts f).nodes) (right : n ∈ (ofFacts f).nodes)
    (first : m.kind = .state) (second : n.kind = .state) (other : m.id ≠ n.id) (across : m.x = n.x) :
    m.y ≠ n.y := by
  intro down
  obtain ⟨h, -, named, s, given, hook, here⟩ := exists_slot distinct settles left first
  obtain ⟨k, -, named', t, given', hook', there⟩ := exists_slot distinct settles right second
  obtain ⟨half, row⟩ := here.eq_of_place there across down
  have different : s ≠ t := by
    rintro rfl
    apply other
    rw [named, named', Hook.nodeId, Hook.nodeId, ← hook, ← hook']
  have symm : Std.Symm fun s t : Slot => s.row ≠ t.row ∨ s.onRight ≠ t.onRight :=
    ⟨fun _ _ far => far.imp Ne.symm Ne.symm⟩
  rcases (StateRow.slotsFrom_apart 0 _).forall given given' different with rows | halves
  · exact rows row
  · exact halves half

omit settles in
theorem head_settled {before after : List StateRow} {r : StateRow}
    (split : f.stateRows = before ++ r :: after) : ∀ later ∈ after, r.head ∉ later.hooks := by
  have settled := f.plans_stateRows.settled (distinct_states distinct)
  rw [split] at settled
  exact (List.pairwise_cons.mp (List.pairwise_append.mp settled).2.1).1

/-- The rows of the state nodes are those of the column, and none is left out. -/
theorem exists_state_on_row_iff (y : Binary64) :
    (∃ n ∈ (ofFacts f).nodes, n.kind = .state ∧ n.y = y) ↔
      ∃ row < f.stateRows.length, y = ((80 + row * 40 : Nat) : Binary64) := by
  constructor
  · rintro ⟨n, drawn, state, rfl⟩
    obtain ⟨h, -, -, s, given, -, stands⟩ := exists_slot distinct settles drawn state
    have bounds := StateRow.row_bounds given
    exact ⟨s.row, by omega, stands.down⟩
  · rintro ⟨row, short, rfl⟩
    have split : f.stateRows =
        f.stateRows.take row ++ f.stateRows[row] :: f.stateRows.drop (row + 1) := by simp
    have own := f.stateRows[row].head_mem_hooks
    obtain ⟨h, listed, named⟩ := f.plans_stateRows.known (List.getElem_mem short) own
    rw [← named] at own
    have settled := named ▸ head_settled distinct split
    obtain ⟨m, drawn, state, -, s, -, -, stands⟩ :=
      exists_stands distinct settles split listed own settled
    rw [List.length_take_of_le short.le] at stands
    exact ⟨m, drawn, state, stands.down⟩

theorem hook_mem_row {n : Node} (drawn : n ∈ (ofFacts f).nodes) (state : n.kind = .state) {row : Nat}
    (down : n.y = ((80 + row * 40 : Nat) : Binary64)) {r : StateRow}
    (given : f.stateRows[row]? = some r) : ∃ h ∈ f.states, n.id = h.nodeId ∧ h.id ∈ r.hooks := by
  obtain ⟨h, listed, named, s, placed, hook, stands⟩ := exists_slot distinct settles drawn state
  obtain ⟨index, r', own, found, held⟩ := StateRow.exists_row_of_mem_slotsFrom placed
  have same : s.row = row := by
    rw [stands.down, Binary64.natCast_inj] at down
    omega
  have equal : index = row := by omega
  rw [equal, given] at found
  refine ⟨h, listed, named, ?_⟩
  rw [← hook, ← StateRow.map_hook_slots s.row r, Option.some.inj found]
  exact List.mem_map_of_mem held

theorem exists_alone {h : Hook} (listed : h ∈ f.states)
    (free : ∀ k, ¬ Hook.Mates f.states h k ∧ ¬ Hook.Mates f.states k h) :
    ∃ row, ∃ m ∈ (ofFacts f).nodes, m.id = h.nodeId ∧
      m.StandsIn (f.calledNames.contains h.name) row ∧
      ∀ n ∈ (ofFacts f).nodes, n.kind = .state → n.y = m.y → n.id = m.id := by
  have planned := f.plans_stateRows.lone (distinct_states distinct) listed List.not_mem_nil
    (fun k => (free k).1) fun k => (free k).2
  obtain ⟨before, after, split⟩ := List.append_of_mem planned
  have settled := head_settled distinct split
  rw [StateRow.head_single] at settled
  obtain ⟨m, drawn, state, named, s, own, -, stands⟩ :=
    exists_stands distinct settles split listed (by simp) settled
  have half : s.onRight = f.calledNames.contains h.name := StateRow.onRight_of_mem_single own
  refine ⟨before.length, m, drawn, named, half ▸ stands, ?_⟩
  intro n drawn' state' down
  have given : f.stateRows[before.length]? = some (StateRow.single f.calledNames h) := by
    simp [split]
  obtain ⟨k, -, named', hook⟩ :=
    hook_mem_row distinct settles drawn' state' (down.trans stands.down) given
  rw [StateRow.hooks_single, List.mem_singleton] at hook
  rw [named, named', Hook.nodeId, Hook.nodeId, hook]

omit settles in
theorem pair_mem_stateRows_iff (apart : Hook.Apart f.states) (first second : String) :
    .pair first second ∈ f.stateRows ↔
      ∃ a b, Hook.Mates f.states a b ∧ a.id = first ∧ b.id = second :=
  f.plans_stateRows.pair_mem_iff (distinct_states distinct) apart (StateRow.spoken_nil f.states)
    first second

theorem exists_side_by_side (apart : Hook.Apart f.states) {a b : Hook}
    (mates : Hook.Mates f.states a b) :
    ∃ row, ∃ m ∈ (ofFacts f).nodes, ∃ n ∈ (ofFacts f).nodes,
      m.id = a.nodeId ∧ n.id = b.nodeId ∧ m.StandsIn false row ∧ n.StandsIn true row := by
  have planned := (pair_mem_stateRows_iff distinct apart a.id b.id).mpr ⟨a, b, mates, rfl, rfl⟩
  obtain ⟨before, after, split⟩ := List.append_of_mem planned
  have nodup := (f.plans_stateRows.nodup (distinct_states distinct) apart
    (StateRow.spoken_nil f.states)).1
  rw [split, List.flatMap_append, List.flatMap_cons] at nodup
  have here := (List.nodup_append.mp nodup).2.1
  have settled {id : String} (placed : id ∈ (StateRow.pair a.id b.id).hooks) :
      ∀ later ∈ after, id ∉ later.hooks := fun later within again =>
    List.disjoint_of_nodup_append here placed (List.mem_flatMap.mpr ⟨later, within, again⟩)
  have other : a.id ≠ b.id := by simpa [StateRow.hooks] using (List.nodup_append.mp here).1
  obtain ⟨m, drawn, -, named, s, own, hook, stands⟩ := exists_stands distinct settles split
    mates.mem_left (by simp [StateRow.hooks]) (settled (by simp [StateRow.hooks]))
  obtain ⟨n, drawn', -, named', t, own', hook', stands'⟩ := exists_stands distinct settles split
    mates.mem_right (by simp [StateRow.hooks]) (settled (by simp [StateRow.hooks]))
  refine ⟨before.length, m, drawn, n, drawn', named, named', ?_, ?_⟩
  · rcases List.mem_pair.mp own with rfl | rfl
    · exact stands
    · exact absurd hook.symm other
  · rcases List.mem_pair.mp own' with rfl | rfl
    · exact absurd hook' other
    · exact stands'

end Distinct

end Layout

end Graph

end RenderFlow
