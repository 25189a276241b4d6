import RenderFlow.Proofs.Markup.Forest
import RenderFlow.Proofs.Syntax.Induction

/-!
The scan with its stack of open elements is the numbering of the markup forest. Below a node the open
elements are the ones around it, and after the node they are the same again, so nothing is closed
that is not open.
-/
namespace RenderFlow

namespace MarkupScan

/-- The scan after the elements of a forest that stands inside the open elements. -/
def after (m : MarkupScan) (forest : List (Tree Markup)) : MarkupScan where
  elements :=
    m.elements ++ Tree.recordsAll m.opened.top? m.opened.size (m.elements.length + 1) forest
  opened := m.opened

@[simp] theorem after_nil (m : MarkupScan) : m.after [] = m := by
  simp [after, Tree.recordsAll]

theorem after_append (m : MarkupScan) (left right : List (Tree Markup)) :
    m.after (left ++ right) = (m.after left).after right := by
  simp [after, Tree.recordsAll_append, Nat.add_right_comm]

theorem leave_after_enter (m : MarkupScan) (t name : SyntaxNode) (below : List (Tree Markup)) :
    ((m.enter t name).after below).leave = .ok (m.after [.node (.ofNode t name) below]) := by
  simp only [leave, after, enter, OpenElements.pop_push, OpenElements.top?_push,
    OpenElements.size_push, Tree.recordsAll, Tree.records, List.append_nil, List.length_append,
    List.length_singleton, List.append_assoc, List.singleton_append]
  rfl

theorem foldlM_flatMap_events {ts : List SyntaxNode}
    (each : ∀ t ∈ ts, ∀ m, t.events.foldlM step m = .ok (m.after t.markup)) (m : MarkupScan) :
    (ts.flatMap Tree.events).foldlM step m = .ok (m.after (ts.flatMap Tree.markup)) := by
  induction ts generalizing m with
  | nil => simp [pure, Except.pure]
  | cons t rest ih =>
    obtain ⟨first, others⟩ := List.forall_mem_cons.mp each
    rw [List.flatMap_cons, List.flatMap_cons, List.foldlM_append, first m, after_append]
    exact ih others (m.after t.markup)

theorem foldlM_events (t : SyntaxNode) :
    ∀ m : MarkupScan, t.events.foldlM step m = .ok (m.after t.markup) := by
  induction t using Tree.visibleInduction with
  | step t ih =>
    intro m
    rw [Tree.events_eq, Tree.markup_eq, Tree.markupOver, List.cons_append, List.foldlM_cons]
    cases tag : t.tagName? with
    | none =>
      simp only [step, tag]
      change (t.visibleChildren.flatMap Tree.events ++ [Event.leave t]).foldlM step m = _
      rw [List.foldlM_append, foldlM_flatMap_events ih m]
      simp [step, tag, bind, Except.bind, pure, Except.pure]
    | some name =>
      simp only [step, tag]
      change (t.visibleChildren.flatMap Tree.events ++ [Event.leave t]).foldlM step
        (m.enter t name) = _
      rw [List.foldlM_append, foldlM_flatMap_events ih (m.enter t name)]
      simp [step, tag, bind, Except.bind, pure, Except.pure, leave_after_enter]

/-- The scan never closes an element that is not open, and in the end none is. -/
theorem run_eq (root : SyntaxNode) :
    run root = .ok { elements := Tree.flatten root.markup, opened := {} } := by
  rw [run, foldlM_events root {}]
  simp [after, Tree.flatten, OpenElements.top?, OpenElements.size]

end MarkupScan

theorem Tree.elements_eq (root : SyntaxNode) : root.elements = Tree.flatten root.markup := by
  rw [Tree.elements, MarkupScan.run_eq]

end RenderFlow
