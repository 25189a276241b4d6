import Mathlib.Data.List.Basic
import RenderFlow.Proofs.Syntax.Reach

/-!
What a walk meets, by recursion on the tree: `Placed.walk_eq_visibleParts`.
-/
namespace RenderFlow

mutual

/-- A node with its parent, and then all that is visible below its visible children, one child after
another. -/
def Tree.placedParts (parent : Option SyntaxNode) : SyntaxNode → List Placed
  | .node l cs => ⟨.node l cs, parent⟩ :: Tree.placedPartsAll (.node l cs) cs

def Tree.placedPartsAll (parent : SyntaxNode) : List SyntaxNode → List Placed
  | [] => []
  | t :: rest =>
    (if t.isVisible then t.placedParts (some parent) else []) ++ Tree.placedPartsAll parent rest

end

namespace Placed

def visibleParts (p : Placed) : List Placed :=
  p.node.placedParts p.parent

theorem placedPartsAll_eq (parent : SyntaxNode) (ts : List SyntaxNode) :
    Tree.placedPartsAll parent ts =
      ((ts.filter Tree.isVisible).map (⟨·, some parent⟩)).flatMap visibleParts := by
  induction ts with
  | nil => rfl
  | cons t rest ih =>
    rw [Tree.placedPartsAll, ih]
    by_cases visible : t.isVisible
    · rw [if_pos visible, List.filter_cons_of_pos visible]
      rfl
    · rw [if_neg visible, List.filter_cons_of_neg visible]
      rfl

theorem visibleParts_eq (p : Placed) :
    p.visibleParts = p :: p.visibleChildren.flatMap visibleParts := by
  obtain ⟨⟨l, cs⟩, parent⟩ := p
  rw [visibleParts, Tree.placedParts, placedPartsAll_eq]
  rfl

/-- A walk with its stack meets the visible parts in their order. -/
theorem walk_eq_visibleParts (p : Placed) : p.walk = p.visibleParts := by
  induction p using walkInduction with
  | step p ih =>
    rw [walk_eq, visibleParts_eq]
    exact congrArg (p :: ·) (List.flatMap_congr ih)

end Placed

end RenderFlow
