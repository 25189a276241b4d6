import RenderFlow.Hook.Callee
import RenderFlow.Syntax.Walk

/-!
What the body of a function literal does: the state setters it calls, the network calls it makes and
the refs it reads and writes. The body itself is searched too, so expression bodies count.
-/
namespace RenderFlow

structure BodyScan where
  setters : List String := []
  refReads : List String := []
  refWrites : List String := []
  externalCalls : List String := []
deriving DecidableEq, Repr

namespace Tree

def accessedObject? (t : SyntaxNode) : Option SyntaxNode := do
  guard (t.kind == "member_expression")
  (t.child? "object").filter (·.kind == "identifier")

def accessedRef? (t : SyntaxNode) : Option String :=
  (t.accessedObject?.map text).filter (Text.hasSuffix · "Ref")

def isAssignment (t : SyntaxNode) : Bool :=
  ["assignment_expression", "augmented_assignment_expression"].contains t.kind

end Tree

namespace Placed

def isAssigned (p : Placed) : Bool :=
  p.parent.any (·.isAssignment) && p.node.label.field == some "left"

def refWrite? (p : Placed) : Option String :=
  if p.isAssigned then p.node.accessedRef? else none

def refRead? (p : Placed) : Option String :=
  if p.isAssigned then none else p.node.accessedRef?

def bodyWalk (function : SyntaxNode) : List Placed :=
  match function.child? "body" with
  | some body => walk ⟨body, some function⟩
  | none => []

/-- The nodes of the body that a scan walks over, none for what is not a function literal. -/
def scannedNodes : Option SyntaxNode → List Placed
  | some t => if t.isFunction then bodyWalk t else []
  | none => []

end Placed

namespace BodyScan

def ofWalk (trackRefs : Bool) (nodes : List Placed) : BodyScan where
  setters := distinct (nodes.filterMap fun p => p.node.callee?.bind (·.setter?))
  externalCalls := distinct (nodes.filterMap fun p => p.node.callee?.bind (·.externalCall?))
  refReads := if trackRefs then distinct (nodes.filterMap Placed.refRead?) else []
  refWrites := if trackRefs then distinct (nodes.filterMap Placed.refWrite?) else []

def ofFunction (trackRefs : Bool) (function : Option SyntaxNode) : BodyScan :=
  ofWalk trackRefs (Placed.scannedNodes function)

def readsAt (trackRefs : Bool) (t : SyntaxNode) : List SyntaxNode :=
  (t.spelledCallee?.map Callee.names).getD []
    ++ if trackRefs then t.accessedObject?.toList else []

def reads (trackRefs : Bool) (function : Option SyntaxNode) : List SyntaxNode :=
  (Placed.scannedNodes function).flatMap fun p => readsAt trackRefs p.node

end BodyScan

end RenderFlow
