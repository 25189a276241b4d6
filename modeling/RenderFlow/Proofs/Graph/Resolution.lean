import Mathlib.Data.List.Find
import RenderFlow.Proofs.Graph.Finished

/-!
Which node a name stands for. Refs, props and variables go by their whole names, and a state by the
start of its label, so of two states the one that is declared first can take the edges of the other.
Main statement: `Layout.build_resolves`.
-/
namespace RenderFlow

open RenderFlow.Graph Hierarchy

namespace Graph

namespace Node

/-- The name that a node was declared with, without what the label of global state adds to it. -/
def declaredName? (n : Node) : Option String :=
  if n.kind == .state then n.infoText? "name" else some n.label

def answersTo (name : String) (n : Node) : Bool :=
  n.kind == .state && Text.hasPrefix n.label name

variable {name : String} {n : Node}

theorem kind_of_answersTo (answers : n.answersTo name) : n.kind = .state := by
  rw [answersTo, Bool.and_eq_true, beq_iff_eq] at answers
  exact answers.1

theorem declaredName?_of_kind (other : n.kind ≠ .state) : n.declaredName? = some n.label :=
  if_neg (by simpa using other)

end Node

def firstState? (nodes : List Node) (name : String) : Option Node :=
  nodes.find? (Node.answersTo name)

/-- How a node comes to stand for a name: a ref is named exactly, a state is the first that the name
speaks of, and a prop or variable is named exactly while the name speaks of no state. -/
inductive StandsFor (nodes : List Node) (name : String) (n : Node) : Prop where
  | ref (kind : n.kind = .independent) (named : n.label = name)
  | state (first : firstState? nodes name = some n)
  | other (kind : n.kind = .prop ∨ n.kind = .variable) (named : n.label = name)
      (stateless : firstState? nodes name = none)

/-- Only a state stands for a name that is not its own, and it is the first that the name speaks of. -/
theorem StandsFor.declaredName?_eq {nodes : List Node} {name : String} {n : Node}
    (stands : StandsFor nodes name n)
    (whole : ∀ m ∈ nodes, m.answersTo name → m.declaredName? = some name) :
    n.declaredName? = some name := by
  cases stands with
  | ref kind named => rw [Node.declaredName?_of_kind (by simp [kind]), named]
  | state first => exact whole n (List.mem_of_find?_eq_some first) (List.find?_some first)
  | other kind named _ =>
    rw [Node.declaredName?_of_kind (by rcases kind with kind | kind <;> simp [kind]), named]

namespace Inventory

variable {f : Facts} {name : String} {n : Node}

theorem state?_ofFacts (f : Facts) (name : String) :
    (Inventory.ofFacts f).state? name =
      firstState? (Inventory.ofFacts f).builder.nodes name := by
  rw [firstState?, ← find?_states f fun _ => Node.kind_of_answersTo, state?]
  refine List.find?_congr fun n within => ?_
  rw [Node.answersTo, (sorted_ofFacts f).states n within]
  rfl

theorem label_of_labelled? {nodes : List Node} (found : labelled? nodes name = some n) :
    n.label = name := by
  simpa using List.find?_some found

theorem standsFor_of_ref? (found : (Inventory.ofFacts f).ref? name = some n) :
    StandsFor (Inventory.ofFacts f).builder.nodes name n :=
  .ref (kind_of_ref? (sorted_ofFacts f) found) (label_of_labelled? found)

theorem standsFor_of_state? (found : (Inventory.ofFacts f).state? name = some n) :
    StandsFor (Inventory.ofFacts f).builder.nodes name n :=
  .state (state?_ofFacts f name ▸ found)

theorem standsFor_of_prop? (stateless : (Inventory.ofFacts f).state? name = none)
    (found : (Inventory.ofFacts f).prop? name = some n) :
    StandsFor (Inventory.ofFacts f).builder.nodes name n :=
  .other (.inl (kind_of_prop? (sorted_ofFacts f) found)) (label_of_labelled? found)
    (state?_ofFacts f name ▸ stateless)

theorem standsFor_of_variableNamed? (stateless : (Inventory.ofFacts f).state? name = none)
    (found : (Inventory.ofFacts f).variableNamed? name = some n) :
    StandsFor (Inventory.ofFacts f).builder.nodes name n :=
  .other (.inr (kind_of_variableNamed? (sorted_ofFacts f) found)) (label_of_labelled? found)
    (state?_ofFacts f name ▸ stateless)

theorem standsFor_of_dependency? (found : (Inventory.ofFacts f).dependency? name = some n) :
    StandsFor (Inventory.ofFacts f).builder.nodes name n := by
  rcases Option.or_eq_some_iff.mp found with found | ⟨stateless, found⟩
  · exact standsFor_of_state? found
  rcases Option.or_eq_some_iff.mp found with found | ⟨-, found⟩
  · exact standsFor_of_ref? found
  rcases Option.or_eq_some_iff.mp found with found | ⟨-, found⟩
  · exact standsFor_of_variableNamed? stateless found
  · exact standsFor_of_prop? stateless found

theorem declaredName?_of_source? (found : (Inventory.ofFacts f).source? name = some n) :
    n.declaredName? = some name := by
  have sorted := sorted_ofFacts f
  rcases Option.or_eq_some_iff.mp found with found | ⟨-, found⟩
  · have kind := sorted.states n (List.mem_of_find?_eq_some found)
    rw [Node.declaredName?, kind]
    simpa using List.find?_some found
  rcases Option.or_eq_some_iff.mp found with found | ⟨-, found⟩
  · rw [Node.declaredName?_of_kind (by simp [kind_of_ref? sorted found]), label_of_labelled? found]
  rcases Option.or_eq_some_iff.mp found with found | ⟨-, found⟩
  · rw [Node.declaredName?_of_kind (by simp [kind_of_prop? sorted found]), label_of_labelled? found]
  · rw [Node.declaredName?_of_kind (by simp [kind_of_variableNamed? sorted found]),
      label_of_labelled? found]

end Inventory

namespace Wire

variable {f : Facts} {w : Wire}

open Inventory in
theorem standsFor (asked : w ∈ f.wires) (kind : w.kind = .dependency)
    (read : w.target.kind ≠ .variable) :
    ∃ name, w.label = some name ∧
      StandsFor (Inventory.ofFacts f).builder.nodes name w.source := by
  cases drawn_of_mem asked with
  | effectDependency _ _ _ found | callbackDependency _ _ _ found =>
    exact ⟨_, rfl, standsFor_of_dependency? found⟩
  | refRead _ _ _ found | refUse _ _ found _ => exact ⟨_, rfl, standsFor_of_ref? found⟩
  | stateUse _ _ _ found => exact ⟨_, rfl, standsFor_of_state? found⟩
  | propUse _ _ others found => exact ⟨_, rfl, standsFor_of_prop? others.2 found⟩
  | variableUse _ _ others found => exact ⟨_, rfl, standsFor_of_variableNamed? others.2.1 found⟩
  | variableRead _ target _ _ _ =>
    exact absurd (kind_of_node? (sorted_ofFacts f) target) read
  | effectSetter | refWrite | callbackSetter | effectCall | callbackCall | refAttachment | nesting =>
    cases kind

open Inventory in
theorem declaredName?_source (asked : w ∈ f.wires) (kind : w.kind = .dependency)
    (derived : w.target.kind = .variable) :
    ∃ name, w.label = some name ∧ w.source.declaredName? = some name := by
  have sorted := sorted_ofFacts f
  cases drawn_of_mem asked with
  | variableRead _ _ _ found _ => exact ⟨_, rfl, declaredName?_of_source? found⟩
  | effectDependency _ target | callbackDependency _ target | refRead _ target =>
    rw [kind_of_node? sorted target] at derived
    cases derived
  | refUse listed | stateUse listed | propUse listed | variableUse listed =>
    rw [sorted.elements _ listed] at derived
    cases derived
  | effectSetter | refWrite | callbackSetter | effectCall | callbackCall | refAttachment | nesting =>
    cases kind

open Inventory in
theorem firstState?_target (asked : w ∈ f.wires) (kind : w.kind = .mutation)
    (state : w.target.kind = .state) :
    ∃ setter, w.label = some setter ∧
      firstState? (Inventory.ofFacts f).builder.nodes (Callee.stateName setter) = some w.target := by
  have sorted := sorted_ofFacts f
  cases drawn_of_mem asked with
  | effectSetter _ _ _ found | callbackSetter _ _ _ found =>
    exact ⟨_, rfl, state?_ofFacts f _ ▸ found⟩
  | refWrite _ _ _ found | refAttachment _ _ found _ =>
    rw [kind_of_ref? sorted found] at state
    cases state
  | effectDependency | refRead | callbackDependency | effectCall | callbackCall | variableRead
  | refUse | stateUse | propUse | variableUse | nesting => cases kind

end Wire

/-! What the nodes are called stays when they are moved. -/

structure Naming where
  id : String
  kind : NodeKind
  label : String
  declared : Option String

namespace Node

def naming (n : Node) : Naming :=
  ⟨n.id, n.kind, n.label, n.declaredName?⟩

variable {base left right : Binary64} {places : Places} {slots : List Slot} {n : Node}

theorem declaredName?_atRow (row : Nat) : (n.atRow base row).declaredName? = n.declaredName? := by
  have kept : (n.atRow base row).infoText? "name" = n.infoText? "name" := by
    unfold infoText? atRow
    rw [Table.get?_set, if_neg (by decide)]
  rw [declaredName?, declaredName?, kept]
  rfl

theorem declaredName?_inSlot (x : Binary64) (row : Nat) (slot : String) :
    (n.inSlot x row slot).declaredName? = n.declaredName? := by
  have kept : (n.inSlot x row slot).infoText? "name" = n.infoText? "name" := by
    unfold infoText? inSlot
    rw [Table.get?_set, if_neg (by decide)]
  rw [declaredName?, declaredName?, kept]
  rfl

theorem naming_packed : (n.packed base places).naming = n.naming := by
  refine afterMoves_invariant (p := isMeant) (fun place m => ?_) places n
  rw [naming, declaredName?_atRow]
  rfl

theorem naming_slotted : (n.slotted left right slots).naming = n.naming := by
  refine afterMoves_invariant (p := isFor) (fun s m => ?_) slots n
  rw [naming, intoSlot, declaredName?_inSlot]
  rfl

end Node

section Moved

variable {move : Node → Node} (kept : ∀ n, (move n).naming = n.naming)

include kept

theorem answersTo_moved (name : String) (n : Node) :
    (move n).answersTo name = n.answersTo name := by
  have kind : (move n).kind = n.kind := congrArg Naming.kind (kept n)
  have label : (move n).label = n.label := congrArg Naming.label (kept n)
  rw [Node.answersTo, Node.answersTo, kind, label]

theorem firstState?_map (nodes : List Node) (name : String) :
    firstState? (nodes.map move) name = (firstState? nodes name).map move := by
  have same : Node.answersTo name ∘ move = Node.answersTo name :=
    funext fun n => answersTo_moved kept name n
  rw [firstState?, firstState?, List.find?_map, same]

theorem StandsFor.map {nodes : List Node} {name : String} {n : Node}
    (stands : StandsFor nodes name n) : StandsFor (nodes.map move) name (move n) := by
  have kind_eq : (move n).kind = n.kind := congrArg Naming.kind (kept n)
  have label_eq : (move n).label = n.label := congrArg Naming.label (kept n)
  cases stands with
  | ref kind named => exact .ref (kind_eq.trans kind) (label_eq.trans named)
  | state first => exact .state (by rw [firstState?_map kept, first, Option.map_some])
  | other kind named stateless =>
    exact .other (kind_eq ▸ kind) (label_eq.trans named)
      (by rw [firstState?_map kept, stateless, Option.map_none])

end Moved

namespace Layout

variable {f : Facts} {places : Places} {next : Nat}

theorem naming_settle (n : Node) : (settle f places n).naming = n.naming := by
  rw [settle, Node.naming_slotted, Node.naming_packed]

@[simp] theorem id_settle (n : Node) : (settle f places n).id = n.id :=
  congrArg Naming.id (naming_settle n)

@[simp] theorem kind_settle (n : Node) : (settle f places n).kind = n.kind :=
  congrArg Naming.kind (naming_settle n)

@[simp] theorem label_settle (n : Node) : (settle f places n).label = n.label :=
  congrArg Naming.label (naming_settle n)

@[simp] theorem declaredName?_settle (n : Node) :
    (settle f places n).declaredName? = n.declaredName? :=
  congrArg Naming.declared (naming_settle n)

theorem nodes_ofFacts (settles : Settles f places next) :
    (ofFacts f).nodes = (Inventory.ofFacts f).builder.nodes.map (settle f places) := by
  rw [settles.settled, nodes_unmoved]

theorem eq_settle (settles : Settles f places next) {m n : Node}
    (held : m ∈ (Inventory.ofFacts f).builder.nodes) (within : n ∈ (ofFacts f).nodes)
    (same : n.id = m.id) : n = settle f places m := by
  have drawn : settle f places m ∈ (ofFacts f).nodes := by
    rw [nodes_ofFacts settles]
    exact List.mem_map_of_mem held
  exact List.inj_on_of_nodup_map (anchored_ofFacts f).distinct within drawn
    (same.trans (id_settle m).symm)

end Layout

structure Edge.Runs (e : Edge) (source target : Node) : Prop where
  leaves : source.id = e.source.nodeId
  enters : target.id = e.target.nodeId

instance (e : Edge) (source target : Node) : Decidable (e.Runs source target) :=
  decidable_of_iff (source.id = e.source.nodeId ∧ target.id = e.target.nodeId)
    ⟨fun h => ⟨h.1, h.2⟩, fun h => ⟨h.leaves, h.enters⟩⟩

end Graph

/-- Every state whose label starts with the name is called exactly so. -/
def Facts.NamesInFull (f : Facts) (name : String) : Prop :=
  ∀ h ∈ f.hooks, h.kind.isState → Text.hasPrefix (Item.ofState h).label name → h.name = name

namespace Graph

/-- Which node an edge goes to or comes from, by its label. -/
structure Edge.Resolves (f : Facts) (nodes : List Node) (e : Edge) (source target : Node) :
    Prop where
  read : e.kind = .dependency → target.kind ≠ .variable →
    ∃ name, e.label = some name ∧ StandsFor nodes name source ∧
      (f.NamesInFull name → source.declaredName? = some name)
  derived : e.kind = .dependency → target.kind = .variable →
    ∃ name, e.label = some name ∧ source.declaredName? = some name
  written : e.kind = .mutation → target.kind = .state →
    ∃ setter, e.label = some setter ∧
      firstState? nodes (Callee.stateName setter) = some target ∧
      (f.NamesInFull (Callee.stateName setter) →
        target.declaredName? = some (Callee.stateName setter))

/-- If a state is called what a setter speaks of, then the setter's edge is drawn to the first state
that this name speaks of. -/
def Layout.DrawsSetter (l : Layout) (scheme recordId setter : String) : Prop :=
  ∀ state ∈ l.nodes, state.kind = .state → state.declaredName? = some (Callee.stateName setter) →
    ∃ first, firstState? l.nodes (Callee.stateName setter) = some first ∧
      ∃ e ∈ l.edges,
        e.id = wireId [scheme, NodeKind.sideEffect.nodeId recordId, first.id, setter]

theorem nodeId_mem_stacked {kind : NodeKind} {x : Binary64} {start : Rat} {items : List Item}
    {item : Item} (listed : item ∈ items) :
    kind.nodeId item.id ∈ nodeIds (stacked kind x start items) := by
  obtain ⟨index, short, rfl⟩ := List.mem_iff_getElem.mp listed
  exact mem_nodeIds.mpr ⟨_, List.mem_mapIdx.mpr ⟨index, short, rfl⟩, rfl⟩

namespace Inventory

variable {f : Facts}

theorem exists_sideEffect? {recordId : String} {item : Item} (listed : item ∈ f.sideEffectItems)
    (named : item.id = recordId) :
    ∃ node, (Inventory.ofFacts f).sideEffect? recordId = some node ∧
      node.id = NodeKind.sideEffect.nodeId recordId := by
  have asked : NodeKind.sideEffect.nodeId recordId ∈ nodeIds f.sideEffectNodes :=
    named ▸ nodeId_mem_stacked listed
  have requested : NodeKind.sideEffect.nodeId recordId ∈ nodeIds f.requestedNodes := by
    simp only [Facts.requestedNodes, nodeIds_append, List.mem_append]
    exact .inl (.inl (.inr asked))
  have known := held_of_requested requested
  cases found : (Inventory.ofFacts f).sideEffect? recordId with
  | none => exact absurd known (Builder.node?_eq_none_iff.mp found)
  | some node => exact ⟨node, rfl, Builder.id_of_node? found⟩

end Inventory

namespace Wire

variable {f : Facts} {setter : String} {state : Node}

theorem exists_ofSetter {v : Inventory} (scheme : String) (node : Node)
    (found : v.state? (Callee.stateName setter) = some state) :
    ∃ w, ofSetter v scheme node setter = some w ∧
      w.id = wireId [scheme, node.id, state.id, setter] := by
  refine ⟨⟨wireId [scheme, node.id, state.id, setter], node, state, .mutation, some setter⟩, ?_, rfl⟩
  rw [ofSetter, found, Option.map_some]

open Inventory in
theorem exists_effectSetter {e : Effect} (record : e ∈ f.effects) (listed : setter ∈ e.setters)
    (found : (Inventory.ofFacts f).state? (Callee.stateName setter) = some state) :
    ∃ w ∈ f.wires, w.id = wireId ["mut", NodeKind.sideEffect.nodeId e.id, state.id, setter] := by
  obtain ⟨node, known, named⟩ := exists_sideEffect?
    (List.mem_append_left _ (List.mem_map_of_mem (f := Item.ofEffect) record)) (rfl : _ = e.id)
  obtain ⟨w, drawn, id⟩ := exists_ofSetter "mut" node found
  have asked : w ∈ ofEffect (Inventory.ofFacts f) e := by
    rw [ofEffect, known]
    simp only [List.mem_append]
    exact .inl (.inr (List.mem_filterMap.mpr ⟨setter, listed, drawn⟩))
  refine ⟨w, ?_, named ▸ id⟩
  simp only [Facts.wires, ofFacts, ofSideEffects, List.mem_append]
  exact .inl (.inl (.inl (.inl (.inl (List.mem_flatMap.mpr ⟨e, record, asked⟩)))))

open Inventory in
theorem exists_callbackSetter {c : Callback} (record : c ∈ f.callbacks) (listed : setter ∈ c.setters)
    (found : (Inventory.ofFacts f).state? (Callee.stateName setter) = some state) :
    ∃ w ∈ f.wires,
      w.id = wireId ["cb-mut", NodeKind.sideEffect.nodeId c.id, state.id, setter] := by
  obtain ⟨node, known, named⟩ := exists_sideEffect?
    (List.mem_append_right _ (List.mem_map_of_mem (f := Item.ofCallback) record)) (rfl : _ = c.id)
  obtain ⟨w, drawn, id⟩ := exists_ofSetter "cb-mut" node found
  have asked : w ∈ ofCallback (Inventory.ofFacts f) c := by
    rw [ofCallback, known]
    exact List.mem_append_right _ (List.mem_filterMap.mpr ⟨setter, listed, drawn⟩)
  refine ⟨w, ?_, named ▸ id⟩
  simp only [Facts.wires, ofFacts, ofSideEffects, List.mem_append]
  exact .inl (.inl (.inl (.inl (.inr (List.mem_flatMap.mpr ⟨c, record, asked⟩)))))

end Wire

namespace Layout

variable {f : Facts} {places : Places} {next : Nat}

theorem firstState?_ofFacts (settles : Settles f places next) (name : String) :
    firstState? (ofFacts f).nodes name =
      ((Inventory.ofFacts f).state? name).map (settle f places) := by
  rw [nodes_ofFacts settles, firstState?_map naming_settle, Inventory.state?_ofFacts]

theorem exists_hook (settles : Settles f places next) {n : Node} (within : n ∈ (ofFacts f).nodes)
    (state : n.kind = .state) :
    ∃ h ∈ f.hooks, h.kind.isState ∧ n.label = (Item.ofState h).label ∧
      n.declaredName? = some h.name := by
  rw [nodes_ofFacts settles] at within
  obtain ⟨m, held, rfl⟩ := List.mem_map.mp within
  rw [kind_settle] at state
  have lane := f.mem_laneNodes (Inventory.requested_ofFacts held)
  rw [state] at lane
  obtain ⟨h, listed, holds, y, rfl⟩ := Facts.exists_state_of_mem_stateNodes lane
  refine ⟨h, listed, holds, label_settle _, ?_⟩
  rw [declaredName?_settle]
  simp [Builder.itemNode, Item.ofState, Item.ofRef, Node.declaredName?, Node.infoText?, Table.get?,
    Json.asText?]

theorem declaredName?_of_answersTo (settles : Settles f places next) {name : String}
    (full : f.NamesInFull name) :
    ∀ n ∈ (ofFacts f).nodes, n.answersTo name → n.declaredName? = some name := by
  intro n within answers
  obtain ⟨h, listed, state, label, declared⟩ :=
    exists_hook settles within (Node.kind_of_answersTo answers)
  rw [Node.answersTo, Bool.and_eq_true, label] at answers
  rw [declared, full h listed state answers.2]

theorem answersTo_of_declaredName? (settles : Settles f places next) {n : Node}
    (within : n ∈ (ofFacts f).nodes) (state : n.kind = .state) {name : String}
    (declared : n.declaredName? = some name) : n.answersTo name := by
  obtain ⟨h, -, -, label, own⟩ := exists_hook settles within state
  have same : h.name = name := Option.some.inj (own.symm.trans declared)
  have starts : Text.hasPrefix (Item.ofState h).label h.name := by
    simp only [Item.ofState, Item.ofRef, Text.hasPrefix, List.isPrefixOf_iff_prefix]
    split <;> simp
  rw [Node.answersTo, Bool.and_eq_true, beq_iff_eq, label, ← same]
  exact ⟨state, starts⟩

/-- An edge that is no link is a wire between the nodes at its ends. -/
theorem exists_wire (settles : Settles f places next) {e : Edge} (within : e ∈ (ofFacts f).edges)
    {source target : Node} (leaves : source ∈ (ofFacts f).nodes) (enters : target ∈ (ofFacts f).nodes)
    (runs : e.Runs source target) (other : e.kind ≠ .link) :
    ∃ w ∈ f.wires, e.kind = w.kind ∧ e.label = w.label ∧
      source = settle f places w.source ∧ target = settle f places w.target := by
  rcases tie_cases within with ⟨w, asked, same⟩ | ⟨value, setter, -, -, same⟩
  · have ⟨held, held'⟩ := Facts.held_of_mem_wires asked
    exact ⟨w, asked, congrArg Tie.kind same, congrArg Tie.label same,
      eq_settle settles held leaves (runs.leaves.trans (congrArg Tie.source same)),
      eq_settle settles held' enters (runs.enters.trans (congrArg Tie.target same))⟩
  · exact absurd (congrArg Tie.kind same) other

theorem resolves_ofFacts (settles : Settles f places next) {e : Edge} (within : e ∈ (ofFacts f).edges)
    {source target : Node} (leaves : source ∈ (ofFacts f).nodes) (enters : target ∈ (ofFacts f).nodes)
    (runs : e.Runs source target) : e.Resolves f (ofFacts f).nodes source target := by
  have wire := exists_wire settles within leaves enters runs
  have exact {name : String} (full : f.NamesInFull name) := declaredName?_of_answersTo settles full
  constructor
  · intro dependency read
    obtain ⟨w, asked, kind, label, rfl, rfl⟩ := wire (by simp [dependency])
    rw [kind_settle] at read
    obtain ⟨name, named, stands⟩ := Wire.standsFor asked (kind.symm.trans dependency) read
    have settled : StandsFor (ofFacts f).nodes name (settle f places w.source) := by
      rw [nodes_ofFacts settles]
      exact stands.map naming_settle
    exact ⟨name, label.trans named, settled, fun full => settled.declaredName?_eq (exact full)⟩
  · intro dependency derived
    obtain ⟨w, asked, kind, label, rfl, rfl⟩ := wire (by simp [dependency])
    rw [kind_settle] at derived
    obtain ⟨name, named, declared⟩ :=
      Wire.declaredName?_source asked (kind.symm.trans dependency) derived
    exact ⟨name, label.trans named, (declaredName?_settle w.source).trans declared⟩
  · intro mutation state
    obtain ⟨w, asked, kind, label, rfl, rfl⟩ := wire (by simp [mutation])
    rw [kind_settle] at state
    obtain ⟨setter, named, first⟩ :=
      Wire.firstState?_target asked (kind.symm.trans mutation) state
    have settled : firstState? (ofFacts f).nodes (Callee.stateName setter) =
        some (settle f places w.target) := by
      rw [nodes_ofFacts settles, firstState?_map naming_settle, first, Option.map_some]
    exact ⟨setter, label.trans named, settled,
      fun full => exact full _ enters (List.find?_some settled)⟩

theorem drawsSetter_of_wire (settles : Settles f places next) {scheme recordId setter : String}
    (asked : ∀ state, (Inventory.ofFacts f).state? (Callee.stateName setter) = some state →
      ∃ w ∈ f.wires,
        w.id = wireId [scheme, NodeKind.sideEffect.nodeId recordId, state.id, setter]) :
    (ofFacts f).DrawsSetter scheme recordId setter := by
  intro state within kind declared
  have answers := answersTo_of_declaredName? settles within kind declared
  have known : (firstState? (ofFacts f).nodes (Callee.stateName setter)).isSome :=
    List.find?_isSome.mpr ⟨state, within, answers⟩
  obtain ⟨first, found⟩ := Option.isSome_iff_exists.mp known
  refine ⟨first, found, ?_⟩
  rw [firstState?_ofFacts settles] at found
  obtain ⟨m, known, rfl⟩ := Option.map_eq_some_iff.mp found
  obtain ⟨w, drawn, id⟩ := asked m known
  obtain ⟨e, within, named⟩ := exists_edge_of_wire drawn
  exact ⟨e, within, by rw [named, id, id_settle]⟩

/-- What an edge is labelled with tells the nodes that it runs between: it names them exactly, or the
first state whose label starts with the name. So a name that no state's label merely starts with is
always that of the node, and the variables' own edges are exact in any case. -/
theorem build_resolves (f : Facts) :
    (build (some f) = .error .tooLarge ∧
      ∃ e ∈ f.elements, (Binary64.ofRat (e.depth * 160 : Int)).isFinite = false) ∨
    ∃ l, build (some f) = .ok l ∧
      (∀ e ∈ l.edges, ∀ source ∈ l.nodes, ∀ target ∈ l.nodes, e.Runs source target →
        e.Resolves f l.nodes source target) ∧
      (∀ e ∈ f.effects, ∀ setter ∈ e.setters, l.DrawsSetter "mut" e.id setter) ∧
      ∀ c ∈ f.callbacks, ∀ setter ∈ c.setters, l.DrawsSetter "cb-mut" c.id setter := by
  refine (build_cases f).imp id ?_
  intro built
  obtain ⟨places, next, settles⟩ := exists_settles f
  refine ⟨ofFacts f, built, ?_, ?_, ?_⟩
  · intro e within source leaves target enters runs
    exact resolves_ofFacts settles within leaves enters runs
  · intro e record setter listed
    exact drawsSetter_of_wire settles fun _ => Wire.exists_effectSetter record listed
  · intro c record setter listed
    exact drawsSetter_of_wire settles fun _ => Wire.exists_callbackSetter record listed

/-- A state whose name starts another one that is declared before it. -/
def countdownFirst : Facts where
  source := ""
  hooks := [⟨"hook-1", "countdown", .localState, .component, none, {}⟩,
    ⟨"hook-2", "count", .localState, .component, none, {}⟩]
  effects := [⟨"effect-1", .effect, [⟨"count", false⟩], ["setCount"], [], [], [], none⟩]

/-- The longer name takes the edges of the one that is named exactly. -/
theorem countdownFirst_takes_count :
    ∃ l, build (some countdownFirst) = .ok l ∧
      (∃ state ∈ l.nodes, state.kind = .state ∧ state.declaredName? = some "count") ∧
      (∃ e ∈ l.edges, e.kind = .dependency ∧ e.label = some "count" ∧
        ∃ source ∈ l.nodes, ∃ target ∈ l.nodes, e.Runs source target ∧
          target.kind = .sideEffect ∧ source.declaredName? = some "countdown") ∧
      Callee.stateName "setCount" = "count" ∧
      ∃ e ∈ l.edges, e.kind = .mutation ∧ e.label = some "setCount" ∧
        ∃ source ∈ l.nodes, ∃ target ∈ l.nodes, e.Runs source target ∧
          source.id = NodeKind.sideEffect.nodeId "effect-1" ∧
          target.declaredName? = some "countdown" :=
  ⟨ofFacts countdownFirst, build_eq_ok nofun, by decide +kernel⟩

end Layout

end Graph

end RenderFlow
