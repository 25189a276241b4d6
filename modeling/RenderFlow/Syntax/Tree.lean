import RenderFlow.Syntax.Position
import RenderFlow.Text.Utf8

/-!
Syntax trees. A parser reports spans of bytes; resolving a tree against its source turns every span
into a label with its text and position, and leaves each field to the first child that claims it.
-/
namespace RenderFlow

inductive Tree (α : Type) where
  | node (label : α) (children : List (Tree α))

/-- What a parser says of one node. `serial` is its number among the nodes of the tree. -/
structure Span where
  kind : String
  field : Option String
  start : Nat
  stop : Nat
  named : Bool
  missing : Bool
  damaged : Bool
  serial : Nat

/-- What the analysis sees of one node. A node is damaged when an error lies at or below it, and it
has no text when its span cuts a character. -/
structure Label where
  kind : String
  field : Option String
  text : Option String
  position : Position
  named : Bool
  missing : Bool
  damaged : Bool
  serial : Nat

abbrev SyntaxNode := Tree Label

namespace Tree

def label : Tree α → α
  | .node l _ => l

def children : Tree α → List (Tree α)
  | .node _ cs => cs

@[simp] theorem label_node (l : α) (cs : List (Tree α)) : (Tree.node l cs).label = l := rfl

@[simp] theorem children_node (l : α) (cs : List (Tree α)) : (Tree.node l cs).children = cs := rfl

mutual

def size : Tree α → Nat
  | .node _ cs => sizeAll cs + 1

def sizeAll : List (Tree α) → Nat
  | [] => 0
  | t :: rest => size t + sizeAll rest

end

@[simp] theorem sizeAll_append (left right : List (Tree α)) :
    sizeAll (left ++ right) = sizeAll left + sizeAll right := by
  induction left with
  | nil => simp [sizeAll]
  | cons t rest ih => simp [sizeAll, ih, Nat.add_assoc]

theorem sizeAll_filter_le (p : Tree α → Bool) (ts : List (Tree α)) :
    sizeAll (ts.filter p) ≤ sizeAll ts := by
  induction ts with
  | nil => simp
  | cons t rest ih =>
    rw [List.filter_cons]
    split <;> simp only [sizeAll] <;> omega

theorem size_eq (t : Tree α) : t.size = sizeAll t.children + 1 := by
  cases t
  simp [size]

def kind (t : SyntaxNode) : String := t.label.kind

def isLegible (t : SyntaxNode) : Bool := t.label.text.isSome

def text (t : SyntaxNode) : String := t.label.text.getD ""

def position (t : SyntaxNode) : Position := t.label.position

def child? (t : SyntaxNode) (field : String) : Option SyntaxNode :=
  t.children.find? (·.label.field == some field)

/-- Comments and unnamed tokens such as punctuation are invisible. -/
def isVisible (t : SyntaxNode) : Bool :=
  t.label.named && t.kind != "comment"

def visibleChildren (t : SyntaxNode) : List SyntaxNode :=
  t.children.filter isVisible

def isFunction (t : SyntaxNode) : Bool :=
  t.label.named && ["arrow_function", "function_expression", "function"].contains t.kind

def stringValue (t : SyntaxNode) : String :=
  match t.text.toList with
  | quote :: rest =>
    if ['\x27', '\x22', '\x60'].contains quote ∧ rest.getLast? = some quote then
      String.ofList rest.dropLast
    else
      t.text
  | [] => t.text

end Tree

def Span.read (bytes : List UInt8) (field : Option String) (s : Span) : Label where
  kind := s.kind
  field := field
  text := Utf8.textBetween? bytes s.start s.stop
  position := Position.ofOffset bytes s.start
  named := s.named
  missing := s.missing
  damaged := s.damaged
  serial := s.serial

namespace Tree

mutual

def resolveUnder (bytes : List UInt8) (field : Option String) : Tree Span → SyntaxNode
  | .node s cs => .node (s.read bytes field) (resolveAll bytes [] cs)

/-- Only the first child with a field can be found by it, so the later ones lose it. A node's own
field then tells its part in its parent. -/
def resolveAll (bytes : List UInt8) (taken : List String) :
    List (Tree Span) → List SyntaxNode
  | [] => []
  | t :: rest =>
    let field := t.label.field.filter (!taken.contains ·)
    resolveUnder bytes field t :: resolveAll bytes (field.toList ++ taken) rest

end

def resolve (bytes : List UInt8) (t : Tree Span) : SyntaxNode :=
  resolveUnder bytes t.label.field t

end Tree

end RenderFlow
