import RenderFlow.Syntax.Tree

/-!
Reading the texts of nodes. A span may cut a character, and a node with such a span can be passed by
but not read. So an analysis comes with the list of the nodes that it reads, and its answer counts
when all of them are legible, which `afterReading_eq_ok_iff` says.
-/
namespace RenderFlow

inductive TextError where
  | cutCharacter
deriving DecidableEq, Repr

/-- An answer that rests on the texts of some nodes. -/
def afterReading (nodes : List SyntaxNode) (answer : α) : Except TextError α :=
  if nodes.all Tree.isLegible then .ok answer else .error .cutCharacter

theorem afterReading_eq_ok_iff (nodes : List SyntaxNode) (answer result : α) :
    afterReading nodes answer = .ok result ↔
      (∀ t ∈ nodes, t.isLegible = true) ∧ answer = result := by
  unfold afterReading
  rw [← List.all_eq_true]
  split
  · rename_i legible
    simp [legible]
  · rename_i illegible
    simp [illegible]

end RenderFlow
