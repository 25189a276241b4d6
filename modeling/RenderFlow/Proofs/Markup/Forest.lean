import RenderFlow.Markup.Elements

/-!
The markup of a tree as a forest. An element with a name in its tag is one node of the forest, and
everything else, a fragment too, only hands on what is below it. Numbering the nodes in document
order gives the flat list of records.
-/
namespace RenderFlow

/-- What an element says of itself, apart from its place among the others. -/
structure Markup where
  component : String
  props : List String
  refProps : List String
  definedAt : Option Position
deriving DecidableEq, Repr

namespace Markup

def ofNode (t name : SyntaxNode) : Markup where
  component := name.elementName
  props := t.boundProps
  refProps := t.boundRefs
  definedAt := some t.position

def ofElement (e : Element) : Markup :=
  ⟨e.component, e.props, e.refProps, e.definedAt⟩

def record (m : Markup) (parent : Option String) (depth number : Nat) : Element where
  id := s!"jsx-{number}"
  component := m.component
  depth := depth
  parentId := parent
  props := m.props
  refProps := m.refProps
  definedAt := m.definedAt

@[simp] theorem ofElement_record (m : Markup) (parent : Option String) (depth number : Nat) :
    ofElement (m.record parent depth number) = m := rfl

end Markup

namespace Tree

def markupOver (t : SyntaxNode) (below : List (Tree Markup)) : List (Tree Markup) :=
  match t.tagName? with
  | some name => [.node (.ofNode t name) below]
  | none => below

mutual

def markup : SyntaxNode → List (Tree Markup)
  | .node l cs => markupOver (.node l cs) (markupAll cs)

def markupAll : List SyntaxNode → List (Tree Markup)
  | [] => []
  | t :: rest => (if t.isVisible then t.markup else []) ++ markupAll rest

end

theorem markupAll_eq (ts : List SyntaxNode) :
    markupAll ts = (ts.filter isVisible).flatMap markup := by
  induction ts with
  | nil => rfl
  | cons t rest ih => by_cases h : t.isVisible <;> simp [markupAll, h, ih]

theorem markup_eq (t : SyntaxNode) :
    t.markup = t.markupOver (t.visibleChildren.flatMap markup) := by
  cases t with
  | node l cs =>
    rw [markup, markupAll_eq]
    rfl

mutual

/-- The records of a tree whose first element has this number. -/
def records (parent : Option String) (depth number : Nat) : Tree Markup → List Element
  | .node m below =>
    m.record parent depth number ::
      recordsAll (some s!"jsx-{number}") (depth + 1) (number + 1) below

def recordsAll (parent : Option String) (depth number : Nat) : List (Tree Markup) → List Element
  | [] => []
  | t :: rest => records parent depth number t ++ recordsAll parent depth (number + t.size) rest

end

/-- The flat list of a forest's elements: parents before their children, numbered from one. -/
def flatten (forest : List (Tree Markup)) : List Element :=
  recordsAll none 0 1 forest

mutual

theorem ids_records (parent : Option String) (depth number : Nat) :
    ∀ t : Tree Markup,
      (records parent depth number t).map (·.id) =
        (List.range' number t.size).map fun n => s!"jsx-{n}"
  | .node m below => by
    rw [records, List.map_cons, ids_recordsAll, size, List.range'_succ, List.map_cons]
    rfl

theorem ids_recordsAll (parent : Option String) (depth number : Nat) :
    ∀ ts : List (Tree Markup),
      (recordsAll parent depth number ts).map (·.id) =
        (List.range' number (sizeAll ts)).map fun n => s!"jsx-{n}"
  | [] => rfl
  | t :: rest => by
    rw [recordsAll, List.map_append, ids_records, ids_recordsAll, sizeAll, ← List.range'_append_1,
      List.map_append]

end

@[simp] theorem length_records (parent : Option String) (depth number : Nat) (t : Tree Markup) :
    (records parent depth number t).length = t.size := by
  simpa using congrArg List.length (ids_records parent depth number t)

@[simp] theorem length_recordsAll (parent : Option String) (depth number : Nat)
    (ts : List (Tree Markup)) : (recordsAll parent depth number ts).length = sizeAll ts := by
  simpa using congrArg List.length (ids_recordsAll parent depth number ts)

theorem recordsAll_append (parent : Option String) (depth number : Nat)
    (left right : List (Tree Markup)) :
    recordsAll parent depth number (left ++ right) =
      recordsAll parent depth number left ++
        recordsAll parent depth (number + sizeAll left) right := by
  induction left generalizing number with
  | nil => rfl
  | cons t rest ih =>
    rw [List.cons_append, recordsAll, recordsAll, ih, sizeAll, List.append_assoc, Nat.add_assoc]

end Tree

end RenderFlow
