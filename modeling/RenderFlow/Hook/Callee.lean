import RenderFlow.Syntax.Tree
import RenderFlow.Text.Search

/-!
What a call is addressed to, and what that name alone says of the call.
-/
namespace RenderFlow

/-- A plain name, or a method of one. A name is given by its text or by the node that spells it. -/
inductive Callee (α : Type) where
  | plain (name : α)
  | member (object method : α)
deriving DecidableEq, Repr

namespace Callee

def map (f : α → β) : Callee α → Callee β
  | .plain name => .plain (f name)
  | .member object method => .member (f object) (f method)

def names : Callee α → List α
  | .plain name => [name]
  | .member object method => [object, method]

end Callee

namespace Tree

def plainCallee? (t : SyntaxNode) : Option SyntaxNode := do
  guard (t.kind == "call_expression")
  (t.child? "function").filter (·.kind == "identifier")

def spelledCallee? (t : SyntaxNode) : Option (Callee SyntaxNode) := do
  guard (t.kind == "call_expression")
  let callee ← t.child? "function"
  match callee.kind with
  | "identifier" => return .plain callee
  | "member_expression" =>
    let object ← callee.child? "object"
    let method ← callee.child? "property"
    guard (object.kind == "identifier")
    return .member object method
  | _ => none

def callee? (t : SyntaxNode) : Option (Callee String) :=
  t.spelledCallee?.map (·.map text)

end Tree

namespace Callee

/-- A setter is named `set` and then a capital letter. -/
def isSetterName (name : String) : Bool :=
  match name.toList with
  | 's' :: 'e' :: 't' :: c :: _ => 'A' ≤ c && c ≤ 'Z'
  | _ => false

def isMutateMethod (name : String) : Bool :=
  ["mutate", "mutateAsync"].contains name

def isNetworkName (name : String) : Bool :=
  ["fetch", "axios"].contains name

def setter? : Callee String → Option String
  | .plain name => if isSetterName name then some name else none
  | .member object method =>
    if isMutateMethod method then some (object ++ "." ++ method) else none

def externalCall? : Callee String → Option String
  | .plain name => if isNetworkName name then some name else none
  | .member object method =>
    if isNetworkName object then some (object ++ "." ++ method) else none

/-- The name of the state that a setter speaks of: the object of a method, or what follows `set`
up to the end of the line with its first letter lowered. -/
def stateName (setter : String) : String :=
  if setter.toList.contains '.' then
    String.ofList (setter.toList.takeWhile (· != '.'))
  else if isSetterName setter then
    match setter.toList.drop 3 with
    | c :: rest => String.ofList (c.toLower :: rest.takeWhile (· != '\n'))
    | [] => setter
  else
    setter

end Callee

end RenderFlow
