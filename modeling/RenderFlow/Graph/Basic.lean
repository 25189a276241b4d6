import RenderFlow.Graph.Extra

/-!
The graph of a component: boxes in columns and the edges between them. A node's place is the middle
of its box.
-/
namespace RenderFlow.Graph

inductive NodeKind where
  | independent
  | prop
  | state
  | variable
  | sideEffect
  | element
  | external
deriving DecidableEq, Repr

namespace NodeKind

def name : NodeKind → String
  | .independent => "independent"
  | .prop => "prop"
  | .state => "state"
  | .variable => "variable"
  | .sideEffect => "side_effect"
  | .element => "element"
  | .external => "external"

def all : List NodeKind :=
  [.independent, .prop, .state, .variable, .sideEffect, .element, .external]

def ofName? (s : String) : Option NodeKind :=
  all.find? (·.name == s)

def idPrefix : NodeKind → String
  | .sideEffect => "effect"
  | .element => "jsx"
  | kind => kind.name

def rowGap : NodeKind → Rat
  | .independent | .prop => 50
  | .element => 48
  | _ => 40

def nodeId (kind : NodeKind) (recordId : String) : String :=
  kind.idPrefix ++ "-" ++ recordId

end NodeKind

inductive EdgeKind where
  | flow
  | dependency
  | mutation
  | link
  | external
deriving DecidableEq, Repr

namespace EdgeKind

def name : EdgeKind → String
  | .flow => "flow"
  | .dependency => "dependency"
  | .mutation => "mutation"
  | .link => "link"
  | .external => "external"

def ofName? (s : String) : Option EdgeKind :=
  [flow, dependency, mutation, link, external].find? (·.name == s)

end EdgeKind

/-- A place that was set by hand is also kept as it was `written`. Entries of the metadata whose keys
are no texts are `extras`. -/
structure Node where
  id : String
  label : String
  kind : NodeKind
  x : Binary64
  y : Binary64
  width : Binary64 := 120
  height : Binary64 := 32
  info : Metadata := {}
  written : Option (Json × Json) := none
  extras : List Extra := []

structure Endpoint where
  nodeId : String
  x : Binary64
  y : Binary64
deriving DecidableEq

structure Edge where
  id : String
  source : Endpoint
  target : Endpoint
  kind : EdgeKind
  label : Option String := none
deriving DecidableEq

structure Columns where
  independents : Binary64
  states : Binary64
  derived : Binary64
  effects : Binary64
  elements : Binary64
deriving DecidableEq

def Columns.standard : Columns :=
  ⟨80, 300, 520, 740, 960⟩

structure Layout where
  nodes : List Node
  edges : List Edge
  width : Binary64
  height : Binary64
  columns : Columns

namespace Node

def isElement (n : Node) : Bool :=
  n.kind == .element

def infoText? (n : Node) (key : String) : Option String :=
  (n.info.get? key).bind Json.asText?

def infoTexts (n : Node) (key : String) : List String :=
  ((n.info.get? key).map Json.texts).getD []

def setInfo (n : Node) (key value : Json) : Node :=
  match key with
  | .text name => { n with info := n.info.set name value }
  | key => { n with extras := Extra.set ⟨key, value, n.info.entries.length⟩ n.extras }

def setAllInfo (n : Node) (entries : List (Json × Json)) : Node :=
  entries.foldl (fun n entry => n.setInfo entry.1 entry.2) n

end Node

def updateFirst (p : Node → Bool) (f : Node → Node) : List Node → List Node
  | [] => []
  | n :: rest => if p n then f n :: rest else n :: updateFirst p f rest

theorem forall_updateFirst (P : Node → Prop) {p : Node → Bool} {f : Node → Node}
    (kept : ∀ n, P (f n)) {nodes : List Node} (all : ∀ n ∈ nodes, P n) :
    ∀ n ∈ updateFirst p f nodes, P n := by
  induction nodes with
  | nil => exact all
  | cons n rest ih =>
    have ⟨first, others⟩ := List.forall_mem_cons.mp all
    by_cases h : p n
    · simpa [updateFirst, h] using And.intro (kept n) others
    · simpa [updateFirst, h] using And.intro first (ih others)

def updateLast (p : Node → Bool) (f : Node → Node) (nodes : List Node) : List Node :=
  (updateFirst p f nodes.reverse).reverse

theorem forall_updateLast (P : Node → Prop) {p : Node → Bool} {f : Node → Node}
    (kept : ∀ n, P (f n)) {nodes : List Node} (all : ∀ n ∈ nodes, P n) :
    ∀ n ∈ updateLast p f nodes, P n := by
  intro n within
  exact forall_updateFirst P kept (fun m h => all m (List.mem_reverse.mp h)) n
    (List.mem_reverse.mp within)

/-- Of nodes with one id the last one counts. -/
def lastNode? (nodes : List Node) (id : String) : Option Node :=
  nodes.reverse.find? (·.id == id)

end RenderFlow.Graph
