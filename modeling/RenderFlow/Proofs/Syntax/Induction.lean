import RenderFlow.Markup.TagName
import RenderFlow.Syntax.Walk

/-!
Induction over what an analysis sees of a tree: a statement holds of every node if it holds of a node
as soon as it holds of the node's visible children.
-/
namespace RenderFlow.Tree

theorem size_lt_of_mem_visibleChildren {t c : SyntaxNode} (below : c ∈ t.visibleChildren) :
    c.size < t.size :=
  size_lt_of_mem_children (List.mem_filter.mp below).1

theorem visibleInduction {P : SyntaxNode → Prop}
    (step : ∀ t, (∀ c ∈ t.visibleChildren, P c) → P t) (t : SyntaxNode) : P t :=
  step t fun c _ => visibleInduction step c
termination_by t.size
decreasing_by exact size_lt_of_mem_visibleChildren ‹_›

end RenderFlow.Tree
