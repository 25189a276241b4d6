import RenderFlow.Syntax.Tree

/-!
Document order over the visible nodes. The walks keep their own stack, so the depth of a source is
bounded by memory alone; `walk_eq` and `events_eq` say that they give a node and then the walks of
its visible children.
-/
namespace RenderFlow

/-- A node together with its parent, which an analysis may ask for the node's part in it. -/
structure Placed where
  node : SyntaxNode
  parent : Option SyntaxNode

namespace Placed

def visibleChildren (p : Placed) : List Placed :=
  p.node.visibleChildren.map (⟨·, some p.node⟩)

def weight : List Placed → Nat
  | [] => 0
  | p :: rest => p.node.size + weight rest

theorem weight_append (left right : List Placed) :
    weight (left ++ right) = weight left + weight right := by
  induction left with
  | nil => simp [weight]
  | cons p rest ih => simp [weight, ih, Nat.add_assoc]

theorem weight_visibleChildren_lt (p : Placed) : weight p.visibleChildren < p.node.size := by
  have map_node (ts : List SyntaxNode) :
      weight (ts.map (⟨·, some p.node⟩)) = Tree.sizeAll ts := by
    induction ts with
    | nil => rfl
    | cons t rest ih => simp [weight, Tree.sizeAll, ih]
  have filtered := Tree.sizeAll_filter_le Tree.isVisible p.node.children
  have total := p.node.size_eq
  unfold visibleChildren Tree.visibleChildren
  rw [map_node]
  omega

def walkFrom (stack : List Placed) : List Placed :=
  match stack with
  | [] => []
  | p :: rest => p :: walkFrom (p.visibleChildren ++ rest)
termination_by weight stack
decreasing_by
  rw [weight_append]
  have := weight_visibleChildren_lt p
  simp only [weight]
  omega

def walk (p : Placed) : List Placed :=
  walkFrom [p]

@[simp] theorem walkFrom_nil : walkFrom [] = [] := by
  rw [walkFrom]

theorem walkFrom_cons (p : Placed) (rest : List Placed) :
    walkFrom (p :: rest) = p :: walkFrom (p.visibleChildren ++ rest) := by
  rw [walkFrom]

/-- What lies deeper in the stack waits until the top is finished. -/
theorem walkFrom_append (top rest : List Placed) :
    walkFrom (top ++ rest) = walkFrom top ++ walkFrom rest := by
  fun_induction walkFrom top with
  | case1 => rfl
  | case2 p below ih =>
    rw [List.cons_append, walkFrom_cons, ← List.append_assoc, ih, List.cons_append]

theorem walkFrom_eq_flatMap (stack : List Placed) : walkFrom stack = stack.flatMap walk := by
  induction stack with
  | nil => simp
  | cons p rest ih =>
    rw [← List.singleton_append, walkFrom_append, ih]
    rfl

theorem walk_eq (p : Placed) : p.walk = p :: p.visibleChildren.flatMap walk := by
  rw [walk, walkFrom_cons, List.append_nil, walkFrom_eq_flatMap]

@[simp] theorem map_node_visibleChildren (p : Placed) :
    p.visibleChildren.map (·.node) = p.node.visibleChildren := by
  simp [visibleChildren, Function.comp_def]

theorem map_node_walkFrom {left right : List Placed}
    (h : left.map (·.node) = right.map (·.node)) :
    (walkFrom left).map (·.node) = (walkFrom right).map (·.node) := by
  fun_induction walkFrom left generalizing right with
  | case1 =>
    cases right with
    | nil => simp
    | cons q rest => cases h
  | case2 p below ih =>
    cases right with
    | nil => cases h
    | cons q rest =>
      obtain ⟨same, others⟩ := List.cons.inj h
      have same : p.node = q.node := same
      rw [walkFrom_cons, List.map_cons, List.map_cons, same]
      congr 1
      apply ih
      rw [List.map_append, List.map_append, others, map_node_visibleChildren,
        map_node_visibleChildren, same]

end Placed

inductive Event where
  | enter (node : SyntaxNode)
  | leave (node : SyntaxNode)

namespace Event

def weight : List Event → Nat
  | [] => 0
  | .enter t :: rest => 2 * t.size + weight rest
  | .leave _ :: rest => 1 + weight rest

theorem weight_append (left right : List Event) :
    weight (left ++ right) = weight left + weight right := by
  induction left with
  | nil => simp [weight]
  | cons e rest ih => cases e <;> simp [weight, ih, Nat.add_assoc]

theorem weight_visibleChildren_lt (t : SyntaxNode) :
    weight (t.visibleChildren.map .enter) + 1 < 2 * t.size := by
  have map_enter (ts : List SyntaxNode) : weight (ts.map .enter) = 2 * Tree.sizeAll ts := by
    induction ts with
    | nil => rfl
    | cons t rest ih => simp only [List.map_cons, weight, Tree.sizeAll, ih]; omega
  have filtered := Tree.sizeAll_filter_le Tree.isVisible t.children
  have total := t.size_eq
  unfold Tree.visibleChildren
  rw [map_enter]
  omega

def eventsFrom (stack : List Event) : List Event :=
  match stack with
  | [] => []
  | .leave t :: rest => .leave t :: eventsFrom rest
  | .enter t :: rest =>
    .enter t :: eventsFrom (t.visibleChildren.map .enter ++ .leave t :: rest)
termination_by weight stack
decreasing_by
  · simp only [weight]
    omega
  · rw [weight_append]
    have := weight_visibleChildren_lt t
    simp only [weight]
    omega

@[simp] theorem eventsFrom_nil : eventsFrom [] = [] := by
  rw [eventsFrom]

theorem eventsFrom_leave (t : SyntaxNode) (rest : List Event) :
    eventsFrom (.leave t :: rest) = .leave t :: eventsFrom rest := by
  rw [eventsFrom]

theorem eventsFrom_enter (t : SyntaxNode) (rest : List Event) :
    eventsFrom (.enter t :: rest) =
      .enter t :: eventsFrom (t.visibleChildren.map .enter ++ .leave t :: rest) := by
  rw [eventsFrom]

theorem eventsFrom_append (top rest : List Event) :
    eventsFrom (top ++ rest) = eventsFrom top ++ eventsFrom rest := by
  fun_induction eventsFrom top with
  | case1 => rfl
  | case2 t below ih => rw [List.cons_append, eventsFrom_leave, ih, List.cons_append]
  | case3 t below ih =>
    rw [List.cons_append, eventsFrom_enter, List.cons_append, ← ih, List.append_assoc,
      List.cons_append]

end Event

namespace Tree

def walk (t : SyntaxNode) : List SyntaxNode :=
  (Placed.walk ⟨t, none⟩).map (·.node)

/-- Like `walk`, and also tells when the part below each node is finished. -/
def events (t : SyntaxNode) : List Event :=
  Event.eventsFrom [.enter t]

theorem walk_eq (t : SyntaxNode) : t.walk = t :: t.visibleChildren.flatMap walk := by
  have below (c : SyntaxNode) : (Placed.walk ⟨c, some t⟩).map (·.node) = c.walk :=
    Placed.map_node_walkFrom rfl
  rw [walk, Placed.walk_eq, List.map_cons, List.map_flatMap]
  simp [Placed.visibleChildren, List.flatMap_map, below]

theorem eventsFrom_enters (ts : List SyntaxNode) :
    Event.eventsFrom (ts.map .enter) = ts.flatMap events := by
  induction ts with
  | nil => simp
  | cons t rest ih =>
    rw [List.map_cons, ← List.singleton_append, Event.eventsFrom_append, ih]
    rfl

theorem events_eq (t : SyntaxNode) :
    t.events = .enter t :: t.visibleChildren.flatMap events ++ [.leave t] := by
  rw [events, Event.eventsFrom_enter, Event.eventsFrom_append, eventsFrom_enters,
    Event.eventsFrom_leave, Event.eventsFrom_nil, List.cons_append]

end Tree

end RenderFlow
