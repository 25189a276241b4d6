/-!
The ids of the elements that a walk is inside of, innermost first.
-/
namespace RenderFlow

structure OpenElements where
  ids : List String := []
deriving DecidableEq, Repr

inductive OpenElementsError where
  | nothingOpen
deriving DecidableEq, Repr

def OpenElementsError.message : OpenElementsError → String
  | .nothingOpen => "pop from empty list"

namespace OpenElements

def push (s : OpenElements) (id : String) : OpenElements :=
  ⟨id :: s.ids⟩

def pop (s : OpenElements) : Except OpenElementsError (String × OpenElements) :=
  match s.ids with
  | [] => .error .nothingOpen
  | id :: rest => .ok (id, ⟨rest⟩)

def top? (s : OpenElements) : Option String :=
  s.ids.head?

def size (s : OpenElements) : Nat :=
  s.ids.length

@[simp] theorem pop_push (s : OpenElements) (id : String) : (s.push id).pop = .ok (id, s) := rfl

@[simp] theorem top?_push (s : OpenElements) (id : String) : (s.push id).top? = some id := rfl

@[simp] theorem size_push (s : OpenElements) (id : String) : (s.push id).size = s.size + 1 := rfl

end OpenElements

end RenderFlow
