import RenderFlow.Graph.Fault
import RenderFlow.Graph.Packing
import RenderFlow.Graph.Pairing

/-!
Steps on a layout that may be refused halfway: what was done before the fault stays done. Main
statements: where nothing is at fault the steps are `Layout.fit`, `Layout.refresh`, `Layout.pack` and
`Layout.pairStates`, which `run_fit`, `run_refresh`, `run_pack` and `run_pairStates` say.
-/
namespace RenderFlow.Graph

abbrev Attempt := EStateM Fault Layout Unit

/-- Whether every place of a layout is a pair of numbers that no one set by hand. -/
def Layout.Unwritten (l : Layout) : Prop :=
  ∀ n ∈ l.nodes, n.written = none

namespace Attempt

def each (fault? : α → Option Fault) (step : Layout → α → Layout) : List α → Attempt
  | [] => pure ()
  | a :: rest => do
    Fault.refuse (fault? a)
    modify fun l => step l a
    each fault? step rest

theorem run_each {fault? : α → Option Fault} {step : Layout → α → Layout} {items : List α}
    (sound : ∀ a ∈ items, fault? a = none) (l : Layout) :
    (each fault? step items).run l = .ok () (items.foldl step l) := by
  induction items generalizing l with
  | nil => rfl
  | cons a rest ih =>
    have ⟨first, others⟩ := List.forall_mem_cons.mp sound
    rw [each, first]
    exact ih others (step l a)

/-- Grows the canvas from left to right and then from top to bottom, node by node. -/
def growForEach : List Node → Attempt
  | [] => pure ()
  | n :: rest => do
    Fault.refuse n.xFault?
    modify fun l => l.widenFor n
    Fault.refuse n.yFault?
    modify fun l => l.heightenFor n
    growForEach rest

theorem run_growForEach {nodes : List Node} (unwritten : ∀ n ∈ nodes, n.written = none)
    (l : Layout) : (growForEach nodes).run l = .ok () (nodes.foldl Layout.growFor l) := by
  induction nodes generalizing l with
  | nil => rfl
  | cons n rest ih =>
    have ⟨first, others⟩ := List.forall_mem_cons.mp unwritten
    rw [growForEach, Node.xFault?_eq_none first, Node.yFault?_eq_none first]
    exact ih others (l.growFor n)

def fit : Attempt := do
  growForEach (← get).nodes

theorem run_fit {l : Layout} (unwritten : l.Unwritten) : fit.run l = .ok () l.fit :=
  run_growForEach unwritten l

def staleFault? (nodes : List Node) (e : Edge) : Option Fault :=
  match lastNode? nodes e.source.nodeId, lastNode? nodes e.target.nodeId with
  | some source, some target => Edge.fault? source target
  | _, _ => none

def refresh : Attempt := do
  let l ← get
  let isSound (e : Edge) : Bool := (staleFault? l.nodes e).isNone
  let rest := l.edges.dropWhile isSound
  set { l with edges := (l.edges.takeWhile isSound).map (Edge.refreshed l.nodes) ++ rest }
  Fault.refuse (rest.head?.bind (staleFault? l.nodes))

theorem staleFault?_eq_none {nodes : List Node} (unwritten : ∀ n ∈ nodes, n.written = none)
    (e : Edge) : staleFault? nodes e = none := by
  have found {id : String} {n : Node} (h : lastNode? nodes id = some n) : n.endFault? = none :=
    Node.endFault?_eq_none (unwritten n (List.mem_reverse.mp (List.mem_of_find?_eq_some h)))
  unfold staleFault?
  split
  · rename_i source target left right
    rw [Edge.fault?, found left, found right]
    rfl
  · rfl

theorem run_refresh {l : Layout} (unwritten : l.Unwritten) :
    refresh.run l = .ok () l.refresh := by
  have sound : (fun e => (staleFault? l.nodes e).isNone) = fun _ => true := by
    funext e
    rw [staleFault?_eq_none unwritten]
    rfl
  have kept (edges : List Edge) : edges.takeWhile (fun _ => true) = edges := by
    induction edges with
    | nil => rfl
    | cons e rest ih => rw [List.takeWhile_cons_of_pos rfl, ih]
  have dropped (edges : List Edge) : edges.dropWhile (fun _ => true) = [] := by
    induction edges with
    | nil => rfl
    | cons e rest ih => rw [List.dropWhile_cons_of_pos rfl, ih]
  have drawn : refresh.run l =
      .ok () { l with edges := l.edges.map (Edge.refreshed l.nodes) ++ [] } := by
    change EStateM.run (do
      let rest := l.edges.dropWhile fun e => (staleFault? l.nodes e).isNone
      set { l with
        edges := (l.edges.takeWhile fun e => (staleFault? l.nodes e).isNone).map
          (Edge.refreshed l.nodes) ++ rest }
      Fault.refuse (rest.head?.bind (staleFault? l.nodes)) : Attempt) l = _
    rw [sound, kept, dropped]
    rfl
  rw [drawn, List.append_nil]
  rfl

theorem unwritten_refresh {l : Layout} (unwritten : l.Unwritten) : l.refresh.Unwritten :=
  unwritten

def placeFault? (elements : List Node) (place : String × Nat) : Option Fault :=
  (lastNode? elements place.1).bind Node.depthFault?

def placeNext (l : Layout) (place : String × Nat) : Layout :=
  { l with nodes := Layout.placeElement l.columns.elements l.nodes place }

theorem foldl_placeNext (places : Hierarchy.Places) (l : Layout) :
    places.foldl placeNext l =
      { l with nodes := places.foldl (Layout.placeElement l.columns.elements) l.nodes } := by
  induction places generalizing l with
  | nil => rfl
  | cons place rest ih => exact ih (placeNext l place)

theorem unwritten_foldl_placeElement {base : Binary64} {nodes : List Node}
    (unwritten : ∀ n ∈ nodes, n.written = none) {places : Hierarchy.Places} :
    ∀ n ∈ places.foldl (Layout.placeElement base) nodes, n.written = none := by
  induction places generalizing nodes with
  | nil => exact unwritten
  | cons place rest ih => exact ih (forall_updateLast (·.written = none) (fun _ => rfl) unwritten)

/-- The parents of all elements are looked up before the first element is placed. -/
def pack : Attempt := do
  let l ← get
  let elements := l.nodes.filter Node.isElement
  if elements.isEmpty then pure ()
  else
    Fault.refuse (elements.findSome? (·.infoFault? "parent_id"))
    match Hierarchy.rows? elements with
    | some places =>
      each (placeFault? elements) placeNext places
      refresh
      fit
    | none => pure ()

theorem run_placeAll {l : Layout} (unwritten : l.Unwritten) {elements : List Node}
    (sound : ∀ place, placeFault? elements place = none) (places : Hierarchy.Places) :
    (do each (placeFault? elements) placeNext places; refresh; fit : Attempt).run l =
      .ok ()
        { l with
          nodes := places.foldl (Layout.placeElement l.columns.elements) l.nodes }.refresh.fit := by
  have placed : (each (placeFault? elements) placeNext places).run l =
      .ok () (places.foldl placeNext l) := run_each (fun place _ => sound place) l
  rw [foldl_placeNext] at placed
  have still : Layout.Unwritten
      { l with nodes := places.foldl (Layout.placeElement l.columns.elements) l.nodes } :=
    unwritten_foldl_placeElement unwritten
  simp only [EStateM.run_bind, placed, run_refresh still, run_fit (unwritten_refresh still)]

theorem run_pack {l : Layout} (unwritten : l.Unwritten)
    (depths : ∀ n ∈ l.nodes, n.isElement → n.depthFault? = none)
    (parents : ∀ n ∈ l.nodes, n.isElement → n.infoFault? "parent_id" = none) :
    pack.run l = .ok () l.pack := by
  let elements := l.nodes.filter Node.isElement
  have parted : elements.findSome? (·.infoFault? "parent_id") = none :=
    List.findSome?_eq_none_iff.mpr fun n within =>
      have ⟨held, isElement⟩ := List.mem_filter.mp within
      parents n held isElement
  have sound (place : String × Nat) : placeFault? elements place = none := by
    unfold placeFault?
    cases found : lastNode? elements place.1 with
    | none => rfl
    | some n =>
      have ⟨held, isElement⟩ :=
        List.mem_filter.mp (List.mem_reverse.mp (List.mem_of_find?_eq_some found))
      exact depths n held isElement
  change EStateM.run (if elements.isEmpty then pure ()
    else do
      Fault.refuse (elements.findSome? (·.infoFault? "parent_id"))
      match Hierarchy.rows? elements with
      | some places =>
        each (placeFault? elements) placeNext places
        refresh
        fit
      | none => pure () : Attempt) l = _
  rw [parted, Layout.pack]
  change _ = EStateM.Result.ok () (if elements.isEmpty then l else _)
  split
  · rfl
  · change EStateM.run (match Hierarchy.rows? elements with
      | some places => do
        each (placeFault? elements) placeNext places
        refresh
        fit
      | none => pure () : Attempt) l = .ok () (match Hierarchy.rows? elements with
        | some places => _
        | none => l)
    cases Hierarchy.rows? elements with
    | none => rfl
    | some places => exact run_placeAll unwritten sound places

/-- The hooks of all state nodes are looked up before the first state is placed. -/
def pairStates (facts : Facts) : Attempt := do
  let l ← get
  Fault.refuse ((l.nodes.filter Node.isHookState).findSome? (·.infoFault? "hook_id"))
  if l.nodes.any Node.isHookState then
    let hooks := facts.hooks.filter fun h => (l.stateNode? h.id).isSome
    set (l.placeRows 0 (StateRow.plan facts.calledNames hooks []))
    refresh
    fit

theorem unwritten_placeRows {rows : List StateRow} {row : Nat} {l : Layout}
    (unwritten : l.Unwritten) : (l.placeRows row rows).Unwritten := by
  have place {l : Layout} (unwritten : l.Unwritten) (hook : String) (x : Binary64) (row : Nat)
      (slot : String) : (l.placeState hook x row slot).Unwritten :=
    forall_updateLast (·.written = none) (fun _ => rfl) unwritten
  have link {l : Layout} (unwritten : l.Unwritten) (value setter : String) :
      (l.linkStates value setter).Unwritten := by
    unfold Layout.linkStates
    split
    · dsimp only
      split <;> exact unwritten
    · exact unwritten
  induction rows generalizing row l with
  | nil => exact unwritten
  | cons r rest ih =>
    refine ih ?_
    cases r with
    | pair value setter => exact link (place (place unwritten _ _ _ _) _ _ _ _) value setter
    | value hook => exact place unwritten _ _ _ _
    | function hook => exact place unwritten _ _ _ _

theorem run_pairStates {l : Layout} (facts : Facts) (unwritten : l.Unwritten)
    (hooks : ∀ n ∈ l.nodes, n.isHookState → n.infoFault? "hook_id" = none) :
    (pairStates facts).run l = .ok () (l.pairStates facts) := by
  have looked : (l.nodes.filter Node.isHookState).findSome? (·.infoFault? "hook_id") = none :=
    List.findSome?_eq_none_iff.mpr fun n within =>
      have ⟨held, isState⟩ := List.mem_filter.mp within
      hooks n held isState
  let placed := l.placeRows 0 (StateRow.plan facts.calledNames
    (facts.hooks.filter fun h => (l.stateNode? h.id).isSome) [])
  have still : placed.Unwritten := unwritten_placeRows unwritten
  change EStateM.run (do
    Fault.refuse ((l.nodes.filter Node.isHookState).findSome? (·.infoFault? "hook_id"))
    if l.nodes.any Node.isHookState then do
      set placed
      refresh
      fit
    else pure () : Attempt) l = _
  rw [looked, Layout.pairStates]
  change EStateM.run (if l.nodes.any Node.isHookState then do
      set placed
      refresh
      fit
    else pure () : Attempt) l = _
  split
  · simp only [EStateM.run_bind, EStateM.run_set, run_refresh still,
      run_fit (unwritten_refresh still)]
    rfl
  · rfl

end Attempt

end RenderFlow.Graph
