import RenderFlow.Facts.Basic
import RenderFlow.Markup.Bound
import RenderFlow.Markup.OpenElements
import RenderFlow.Syntax.Walk

/-!
The markup elements of a tree as a flat list in document order. Fragments are transparent: they get
no record, and what they hold belongs to the element around them.
-/
namespace RenderFlow

structure MarkupScan where
  elements : List Element := []
  opened : OpenElements := {}

namespace MarkupScan

def enter (m : MarkupScan) (t name : SyntaxNode) : MarkupScan :=
  let id := s!"jsx-{m.elements.length + 1}"
  { elements := m.elements ++ [{
      id := id
      component := name.elementName
      depth := m.opened.size
      parentId := m.opened.top?
      props := t.boundProps
      refProps := t.boundRefs
      definedAt := some t.position }]
    opened := m.opened.push id }

def leave (m : MarkupScan) : Except OpenElementsError MarkupScan := do
  let (_, opened) ← m.opened.pop
  return { m with opened := opened }

def step (m : MarkupScan) : Event → Except OpenElementsError MarkupScan
  | .enter t =>
    match t.tagName? with
    | some name => .ok (m.enter t name)
    | none => .ok m
  | .leave t => if t.tagName?.isSome then m.leave else .ok m

def run (root : SyntaxNode) : Except OpenElementsError MarkupScan :=
  root.events.foldlM step {}

end MarkupScan

namespace Tree

/-- An element is left only after it was entered, so the scan itself never fails. -/
def elements (root : SyntaxNode) : List Element :=
  match MarkupScan.run root with
  | .ok m => m.elements
  | .error _ => []

def elementReads (root : SyntaxNode) : List SyntaxNode :=
  root.walk.flatMap fun t =>
    match t.tagName? with
    | some name => t.boundReads ++ name.nameParts
    | none => []

end Tree

end RenderFlow
