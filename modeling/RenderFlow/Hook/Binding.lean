import RenderFlow.Facts.Basic
import RenderFlow.Syntax.Tree

/-!
The names that the left side of a declarator binds. An object pattern gives local names, not keys,
and an array pattern tells at which place each of its names stands.
-/
namespace RenderFlow

structure Binding where
  node : SyntaxNode
  pattern : BindingPattern
  index : Nat

def Binding.name (b : Binding) : String :=
  b.node.text

namespace Tree

/-- Every comma moves on by one place, so a hole counts. -/
def arrayBindings (index : Nat) : List SyntaxNode → List Binding
  | [] => []
  | t :: rest =>
    if t.kind == "," then arrayBindings (index + 1) rest
    else if t.kind == "identifier" then ⟨t, .array, index⟩ :: arrayBindings index rest
    else arrayBindings index rest

/-- The node that names the local variable of one property, if it is a plain one. -/
def propertyTarget? (t : SyntaxNode) : Option SyntaxNode :=
  match t.kind with
  | "shorthand_property_identifier_pattern" => some t
  | "object_assignment_pattern" =>
    (t.child? "left").filter fun left =>
      ["shorthand_property_identifier_pattern", "identifier"].contains left.kind
  | "pair_pattern" => (t.child? "value").filter (·.kind == "identifier")
  | _ => none

def bindings (pattern : SyntaxNode) : List Binding :=
  match pattern.kind with
  | "identifier" => [⟨pattern, .identifier, 0⟩]
  | "array_pattern" => arrayBindings 0 pattern.children
  | "object_pattern" =>
    (pattern.visibleChildren.filterMap propertyTarget?).map (⟨·, .object, 0⟩)
  | _ => []

def bindingReads (pattern : SyntaxNode) : List SyntaxNode :=
  pattern.bindings.map (·.node)

end Tree

end RenderFlow
