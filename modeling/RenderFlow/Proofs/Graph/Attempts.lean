import RenderFlow.Graph.Attempt
import RenderFlow.Proofs.Graph.Ties

/-!
What a step leaves behind, refused halfway or not. Whatever a step keeps it keeps piece by piece
(`Attempt.Keeps.andThen`), and no step of the refiners takes a node away or lets an edge run to an
unknown one: `Attempt.keeps_pack` and `Attempt.keeps_pairStates`.
-/
namespace RenderFlow.Graph

structure Layout.Steady (ids : List String) (l : Layout) : Prop where
  ids : nodeIds l.nodes = ids
  unwritten : l.Unwritten
  coherent : l.Coherent

namespace Layout.Steady

variable {ids : List String} {l : Layout}

theorem refresh (steady : l.Steady ids) : l.refresh.Steady ids :=
  ⟨steady.ids, steady.unwritten, steady.coherent.refresh.coherent⟩

theorem fit (steady : l.Steady ids) : l.fit.Steady ids := by
  refine ⟨?_, ?_, ?_, ?_⟩
  · rw [nodes_fit, steady.ids]
  · rw [Unwritten, nodes_fit]
    exact steady.unwritten
  · rw [nodes_fit]
    exact steady.coherent.distinct
  · rw [nodes_fit, edges_fit]
    exact steady.coherent.known

theorem withNodes (steady : l.Steady ids) {nodes : List Node} (same : nodeIds nodes = nodeIds l.nodes)
    (unwritten : ∀ n ∈ nodes, n.written = none) : Steady ids { l with nodes := nodes } :=
  ⟨same.trans steady.ids, unwritten, steady.coherent.withNodes same⟩

theorem placeNext (steady : l.Steady ids) (place : String × Nat) :
    (Attempt.placeNext l place).Steady ids :=
  steady.withNodes (nodeIds_placeElement _ _ place)
    (forall_updateLast (·.written = none) (fun _ => rfl) steady.unwritten)

theorem placeRows (steady : l.Steady ids) (rows : List StateRow) :
    (l.placeRows 0 rows).Steady ids := by
  refine ⟨?_, Attempt.unwritten_placeRows steady.unwritten, steady.coherent.placeRows 0 rows⟩
  have counted := congrArg (List.map Prod.fst) (links_placeRows l 0 rows).nodes
  rw [census, census, List.map_map, List.map_map] at counted
  exact Eq.trans counted steady.ids

end Layout.Steady

namespace Attempt

/-- The layout as a step leaves it, refused or not. -/
def leaves (a : Attempt) (l : Layout) : Layout :=
  match a.run l with
  | .ok _ l => l
  | .error _ l => l

theorem leaves_of_ok {a : Attempt} {l m : Layout} (done : a.run l = .ok () m) : a.leaves l = m := by
  rw [leaves, done]

theorem leaves_get (next : Layout → Attempt) (l : Layout) : leaves (get >>= next) l = (next l).leaves l :=
  rfl

/-- Refused or not, the step keeps what holds of the layout. -/
def Keeps (P : Layout → Prop) (a : Attempt) : Prop :=
  ∀ l, P l → P (a.leaves l)

variable {P : Layout → Prop}

theorem Keeps.andThen {first second : Attempt} (kept : first.Keeps P) (kept' : second.Keeps P) :
    Keeps P (do first; second) := by
  intro l holds
  have between := kept l holds
  unfold leaves at between ⊢
  rw [EStateM.run_bind]
  cases ran : first.run l with
  | ok _ m =>
    rw [ran] at between
    exact kept' m between
  | error _ m =>
    rw [ran] at between
    exact between

theorem keeps_refuse (fault : Option Fault) : Keeps P (Fault.refuse fault) := by
  intro l holds
  cases fault with
  | none => exact holds
  | some fault => exact holds

theorem keeps_each {α : Type} {fault? : α → Option Fault} {step : Layout → α → Layout}
    (kept : ∀ l a, P l → P (step l a)) (items : List α) : Keeps P (each fault? step items) := by
  induction items with
  | nil => exact fun l holds => holds
  | cons a rest ih =>
    exact (keeps_refuse (fault? a)).andThen (Keeps.andThen (fun l holds => kept l a holds) ih)

theorem keeps_growForEach (wide : ∀ l n, P l → P (l.widenFor n))
    (tall : ∀ l n, P l → P (l.heightenFor n)) (nodes : List Node) : (growForEach nodes).Keeps P := by
  induction nodes with
  | nil => exact fun l holds => holds
  | cons n rest ih =>
    have widen : Keeps P (modify (·.widenFor n)) := fun l => wide l n
    have heighten : Keeps P (modify (·.heightenFor n)) := fun l => tall l n
    exact (keeps_refuse n.xFault?).andThen (widen.andThen
      ((keeps_refuse n.yFault?).andThen (heighten.andThen ih)))

section Steps

variable {ids : List String}

theorem keeps_refresh : refresh.Keeps (Layout.Steady ids) := by
  intro l steady
  rw [leaves_of_ok (run_refresh steady.unwritten)]
  exact steady.refresh

theorem keeps_fit : fit.Keeps (Layout.Steady ids) := by
  intro l steady
  rw [leaves_of_ok (run_fit steady.unwritten)]
  exact steady.fit

theorem keeps_pack : pack.Keeps (Layout.Steady ids) := by
  intro l steady
  rw [pack, leaves_get]
  dsimp only
  split
  · exact steady
  · refine (keeps_refuse _).andThen ?_ l steady
    cases Hierarchy.rows? (l.nodes.filter Node.isElement) with
    | none => exact fun l holds => holds
    | some places =>
      exact (keeps_each (fun l place holds => holds.placeNext place) places).andThen
        (keeps_refresh.andThen keeps_fit)

theorem keeps_pairStates (facts : Facts) : (pairStates facts).Keeps (Layout.Steady ids) := by
  intro l steady
  rw [pairStates, leaves_get]
  cases (l.nodes.filter Node.isHookState).findSome? (·.infoFault? "hook_id") with
  | some fault => exact steady
  | none =>
    -- No look-up is refused, so the rows are placed before the edges are drawn again.
    change Layout.Steady ids (leaves (if l.nodes.any Node.isHookState then do
      set (l.placeRows 0 _)
      refresh
      fit
    else pure ()) l)
    split
    · exact keeps_refresh.andThen keeps_fit (l.placeRows 0 _) (steady.placeRows _)
    · exact steady

end Steps

end Attempt

end RenderFlow.Graph
