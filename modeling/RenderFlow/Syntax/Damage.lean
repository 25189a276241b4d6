import RenderFlow.Syntax.Tree

/-!
Syntax errors. A parser never fails: it marks what it could not read, and a source counts as broken
when the root of its tree is marked.
-/
namespace RenderFlow

structure SyntaxError where
  position : Position
deriving DecidableEq, Repr

def SyntaxError.message (e : SyntaxError) : String :=
  s!"syntax error at line {e.position.line}, column {e.position.column}"

namespace Tree

def isFault (t : SyntaxNode) : Bool :=
  t.kind == "ERROR" || t.label.missing

def damagedChildren (t : SyntaxNode) : List SyntaxNode :=
  t.children.filter fun c => c.label.damaged || c.label.missing

theorem sizeAll_damagedChildren_lt (t : SyntaxNode) : sizeAll t.damagedChildren < t.size := by
  rw [size_eq]
  exact Nat.lt_succ_of_le (sizeAll_filter_le _ _)

/-- The first fault of a stack of nodes; only what is marked as damaged is searched. -/
def firstFault? (stack : List SyntaxNode) : Option SyntaxNode :=
  match stack with
  | [] => none
  | t :: rest => if t.isFault then some t else firstFault? (t.damagedChildren ++ rest)
termination_by sizeAll stack
decreasing_by
  rw [sizeAll_append]
  have := sizeAll_damagedChildren_lt t
  simp only [sizeAll]
  omega

/-- The tree itself when its root is undamaged, and otherwise the place of its first fault. -/
def checked (root : SyntaxNode) : Except SyntaxError SyntaxNode :=
  if root.label.damaged then
    .error ⟨((firstFault? [root]).getD root).position⟩
  else
    .ok root

end Tree

end RenderFlow
