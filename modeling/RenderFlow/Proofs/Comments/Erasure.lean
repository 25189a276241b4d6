import RenderFlow.Syntax.Damage
import RenderFlow.Syntax.Walk

/-!
Trees that differ in comments alone. A parser hangs comments wherever they stand in the source, so
two trees are compared by what is left of them without comments and without the numbers of their
nodes. Main statement: `bare_resolve_eq`. After it come the ways to look at a tree, each of which
gives the same for a bare tree.
-/
namespace RenderFlow

namespace Span

def unnumbered (s : Span) : Span :=
  { s with serial := 0 }

/-- A comment that plays no part in its parent and carries no flag. -/
structure IsPlainComment (s : Span) : Prop where
  kind : s.kind = "comment"
  field : s.field = none
  missing : s.missing = false
  damaged : s.damaged = false

end Span

namespace Label

def unnumbered (l : Label) : Label :=
  { l with serial := 0 }

def isStray (l : Label) : Bool :=
  l.kind == "comment" && l.field.isNone && !l.missing && !l.damaged

theorem isStray_iff {l : Label} : l.isStray = true ↔
    l.kind = "comment" ∧ l.field = none ∧ l.missing = false ∧ l.damaged = false := by
  simp [isStray, and_assoc]

end Label

namespace Span

variable {s u : Span}

theorem field_eq (same : s.unnumbered = u.unnumbered) : s.field = u.field := by
  change s.unnumbered.field = _
  rw [same]
  rfl

theorem unnumbered_read_eq (same : s.unnumbered = u.unnumbered) (bytes : List UInt8)
    (field : Option String) :
    (s.read bytes field).unnumbered = (u.read bytes field).unnumbered := by
  change s.unnumbered.read bytes field = _
  rw [same]
  rfl

theorem isStray_read_eq (same : s.unnumbered = u.unnumbered) (bytes : List UInt8)
    (field : Option String) : (s.read bytes field).isStray = (u.read bytes field).isStray := by
  change (s.read bytes field).unnumbered.isStray = _
  rw [unnumbered_read_eq same]
  rfl

theorem IsPlainComment.isStray_read (comment : s.IsPlainComment) (bytes : List UInt8) :
    (s.read bytes none).isStray = true := by
  simp [Label.isStray, read, comment.kind, comment.missing, comment.damaged]

end Span

namespace Tree

/-- The second trees are the first ones without some of the leaves that are plain comments. The
nodes that stay may be numbered anew. -/
inductive LosesComments : List (Tree Span) → List (Tree Span) → Prop where
  | nil : LosesComments [] []
  | keep {s u : Span} {inside less rest others : List (Tree Span)}
      (same : s.unnumbered = u.unnumbered) (below : LosesComments inside less)
      (after : LosesComments rest others) :
      LosesComments (.node s inside :: rest) (.node u less :: others)
  | lose {s : Span} {rest others : List (Tree Span)} (comment : s.IsPlainComment)
      (after : LosesComments rest others) : LosesComments (.node s [] :: rest) others

/-- The second tree is the first one without some of its comments; the root stays. -/
def IsWithoutComments (t u : Tree Span) : Prop :=
  t.label.unnumbered = u.label.unnumbered ∧ LosesComments t.children u.children

mutual

/-- What is left of a tree without its stray comments and its numbers. -/
def bare : SyntaxNode → SyntaxNode
  | .node l cs => .node l.unnumbered (bareAll cs)

def bareAll : List SyntaxNode → List SyntaxNode
  | [] => []
  | t :: rest => bif t.label.isStray then bareAll rest else bare t :: bareAll rest

end

theorem bareAll_eq (ts : List SyntaxNode) :
    bareAll ts = (ts.filter (!·.label.isStray)).map bare := by
  induction ts with
  | nil => rfl
  | cons t rest ih =>
    rw [bareAll, List.filter_cons, ih]
    cases t.label.isStray <;> simp

/-- A comment claims no field, so the nodes after it get the same fields without it. -/
theorem bareAll_resolveAll_eq {ts us : List (Tree Span)} (lost : LosesComments ts us)
    (bytes : List UInt8) (taken : List String) :
    bareAll (resolveAll bytes taken ts) = bareAll (resolveAll bytes taken us) := by
  induction lost generalizing taken with
  | nil => rfl
  | @keep s u inside less rest others same below after inner later =>
    simp only [resolveAll, resolveUnder, label_node, bareAll, bare, Span.field_eq same,
      Span.isStray_read_eq same, Span.unnumbered_read_eq same, inner, later]
  | @lose s rest others comment after later =>
    simp only [resolveAll, resolveUnder, label_node, comment.field, Option.filter_none, bareAll,
      comment.isStray_read, cond_true, later, Option.toList_none, List.nil_append]

theorem bare_resolve_eq {t u : Tree Span} (lost : t.IsWithoutComments u) (bytes : List UInt8) :
    (t.resolve bytes).bare = (u.resolve bytes).bare := by
  obtain ⟨s, cs⟩ := t
  obtain ⟨v, ds⟩ := u
  obtain ⟨same, below⟩ := lost
  simp only [label_node, children_node] at same below
  rw [resolve, resolve, resolveUnder, resolveUnder, bare, bare, label_node, label_node,
    Span.field_eq same, Span.unnumbered_read_eq same, bareAll_resolveAll_eq below]

section Looking

variable (t : SyntaxNode)

@[simp] theorem label_bare : t.bare.label = t.label.unnumbered := by
  cases t
  rfl

@[simp] theorem kind_bare : t.bare.kind = t.kind := by
  rw [kind, label_bare]
  rfl

@[simp] theorem text_bare : t.bare.text = t.text := by
  rw [text, label_bare]
  rfl

@[simp] theorem position_bare : t.bare.position = t.position := by
  rw [position, label_bare]
  rfl

@[simp] theorem isLegible_bare : t.bare.isLegible = t.isLegible := by
  rw [isLegible, label_bare]
  rfl

@[simp] theorem isVisible_bare : t.bare.isVisible = t.isVisible := by
  rw [isVisible, label_bare, kind_bare]
  rfl

@[simp] theorem isFunction_bare : t.bare.isFunction = t.isFunction := by
  rw [isFunction, label_bare, kind_bare]
  rfl

@[simp] theorem isFault_bare : t.bare.isFault = t.isFault := by
  rw [isFault, label_bare, kind_bare]
  rfl

@[simp] theorem stringValue_bare : t.bare.stringValue = t.stringValue := by
  simp only [stringValue, text_bare]

theorem children_bare : t.bare.children = (t.children.filter (!·.label.isStray)).map bare := by
  obtain ⟨l, cs⟩ := t
  exact bareAll_eq cs

end Looking

section Lists

variable {f : SyntaxNode → Option α} {g : α → α}

theorem filterMap_bare (same : ∀ c, f c.bare = (f c).map g) (ts : List SyntaxNode) :
    (ts.map bare).filterMap f = (ts.filterMap f).map g := by
  rw [List.filterMap_map, List.map_filterMap]
  congr 1
  funext c
  exact same c

theorem flatMap_bare {f : SyntaxNode → List α} {g : α → α} (same : ∀ c, f c.bare = (f c).map g)
    (ts : List SyntaxNode) : (ts.map bare).flatMap f = (ts.flatMap f).map g := by
  rw [List.flatMap_map, List.map_flatMap]
  congr 1
  funext c
  exact same c

theorem filter_bare {p : SyntaxNode → Bool} (same : ∀ c, p c.bare = p c) (ts : List SyntaxNode) :
    (ts.map bare).filter p = (ts.filter p).map bare := by
  rw [List.filter_map]
  congr 2
  funext c
  exact same c

theorem filter?_bare {p : SyntaxNode → Bool} (same : ∀ c, p c.bare = p c)
    (found : Option SyntaxNode) : (found.map bare).filter p = (found.filter p).map bare := by
  rw [Option.filter_map]
  congr 2
  funext c
  exact same c

theorem bind_bare {f : SyntaxNode → Option β} {g : β → β} (same : ∀ c, f c.bare = (f c).map g)
    (found : Option SyntaxNode) : (found.map bare).bind f = (found.bind f).map g := by
  rw [Option.bind_map, Option.map_bind]
  congr 1
  funext c
  exact same c

@[simp] theorem filter_kind_bare (kind : String) (ts : List SyntaxNode) :
    (ts.map bare).filter (·.kind == kind) = (ts.filter (·.kind == kind)).map bare :=
  filter_bare (fun c => by rw [kind_bare]) ts

@[simp] theorem filter?_kind_bare (kind : String) (found : Option SyntaxNode) :
    (found.map bare).filter (·.kind == kind) = (found.filter (·.kind == kind)).map bare :=
  filter?_bare (fun c => by rw [kind_bare]) found

@[simp] theorem map_text_bare (ts : List SyntaxNode) : (ts.map bare).map text = ts.map text := by
  simp [Function.comp_def]

end Lists

/-- What is asked of the labels of nodes and never holds of a stray comment. -/
structure IsBlind (p : SyntaxNode → Bool) : Prop where
  bare : ∀ t, p t.bare = p t
  stray : ∀ t, t.label.isStray = true → p t = false

namespace IsBlind

variable {p : SyntaxNode → Bool}

theorem of_kind {kind : String} (other : kind ≠ "comment") : IsBlind (·.kind == kind) where
  bare t := by rw [kind_bare]
  stray t stray := by
    have comment : t.kind = "comment" := (Label.isStray_iff.mp stray).1
    simp [comment, other.symm]

theorem filter_children (blind : IsBlind p) (t : SyntaxNode) :
    t.bare.children.filter p = (t.children.filter p).map Tree.bare := by
  rw [children_bare, List.filter_map, List.filter_filter]
  congr 1
  apply List.filter_congr
  intro c _
  cases stray : c.label.isStray <;> simp [blind.bare, blind.stray, stray]

theorem find?_children (blind : IsBlind p) (t : SyntaxNode) :
    t.bare.children.find? p = (t.children.find? p).map Tree.bare := by
  rw [← List.head?_filter, ← List.head?_filter, blind.filter_children, List.head?_map]

theorem any_children (blind : IsBlind p) (t : SyntaxNode) :
    t.bare.children.any p = t.children.any p := by
  rw [Bool.eq_iff_iff, List.any_eq_true, List.any_eq_true, ← List.find?_isSome,
    ← List.find?_isSome, blind.find?_children, Option.isSome_map]

end IsBlind

@[simp] theorem child?_bare (t : SyntaxNode) (field : String) :
    t.bare.child? field = (t.child? field).map bare := by
  refine IsBlind.find?_children ⟨fun c => ?_, fun c stray => ?_⟩ t
  · rw [label_bare]
    rfl
  · simp [(Label.isStray_iff.mp stray).2.1]

@[simp] theorem visibleChildren_bare (t : SyntaxNode) :
    t.bare.visibleChildren = t.visibleChildren.map bare := by
  refine IsBlind.filter_children ⟨isVisible_bare, fun c stray => ?_⟩ t
  have comment : c.kind = "comment" := (Label.isStray_iff.mp stray).1
  simp [isVisible, comment]

@[simp] theorem damagedChildren_bare (t : SyntaxNode) :
    t.bare.damagedChildren = t.damagedChildren.map bare := by
  refine IsBlind.filter_children ⟨fun c => ?_, fun c stray => ?_⟩ t
  · rw [label_bare]
    rfl
  · obtain ⟨-, -, missing, damaged⟩ := Label.isStray_iff.mp stray
    simp [missing, damaged]

theorem firstFault?_map_bare (stack : List SyntaxNode) :
    firstFault? (stack.map bare) = (firstFault? stack).map bare := by
  fun_induction firstFault? stack with
  | case1 => rw [List.map_nil, firstFault?, Option.map_none]
  | case2 t rest fault =>
    rw [List.map_cons, firstFault?, isFault_bare, if_pos fault, Option.map_some]
  | case3 t rest sound ih =>
    rw [List.map_cons, firstFault?, isFault_bare, if_neg sound, damagedChildren_bare,
      ← List.map_append, ih]

theorem checked_bare (root : SyntaxNode) : root.bare.checked = root.checked.map bare := by
  have fault := firstFault?_map_bare [root]
  rw [List.map_singleton] at fault
  have place : ((firstFault? [root.bare]).getD root.bare).position =
      ((firstFault? [root]).getD root).position := by
    rw [fault, Option.getD_map, position_bare]
  have damaged : root.bare.label.damaged = root.label.damaged := by rw [label_bare]; rfl
  rw [checked, checked, damaged, place]
  split <;> rfl

end Tree

namespace Placed

def bare (p : Placed) : Placed :=
  ⟨p.node.bare, p.parent.map Tree.bare⟩

@[simp] theorem node_bare (p : Placed) : p.bare.node = p.node.bare := rfl

@[simp] theorem parent_bare (p : Placed) : p.bare.parent = p.parent.map Tree.bare := rfl

@[simp] theorem visibleChildren_bare (p : Placed) :
    p.bare.visibleChildren = p.visibleChildren.map bare := by
  simp [visibleChildren, Function.comp_def, bare]

theorem walkFrom_map_bare (stack : List Placed) :
    walkFrom (stack.map bare) = (walkFrom stack).map bare := by
  fun_induction walkFrom stack with
  | case1 => simp
  | case2 p rest ih =>
    rw [List.map_cons, walkFrom_cons, visibleChildren_bare, ← List.map_append, ih, List.map_cons]

@[simp] theorem walk_bare (p : Placed) : p.bare.walk = p.walk.map bare :=
  walkFrom_map_bare [p]

end Placed

namespace Event

def bare : Event → Event
  | .enter t => .enter t.bare
  | .leave t => .leave t.bare

theorem eventsFrom_map_bare (stack : List Event) :
    eventsFrom (stack.map bare) = (eventsFrom stack).map bare := by
  have enters (t : SyntaxNode) : t.bare.visibleChildren.map enter =
      (t.visibleChildren.map enter).map bare := by
    simp [bare, Function.comp_def]
  fun_induction eventsFrom stack with
  | case1 => simp
  | case2 t rest ih => rw [List.map_cons, bare, eventsFrom_leave, ih, List.map_cons, bare]
  | case3 t rest ih =>
    rw [List.map_append, List.map_cons, ← enters] at ih
    rw [List.map_cons, bare, eventsFrom_enter, List.map_cons, bare, ← ih, bare]

end Event

namespace Tree

@[simp] theorem walk_bare (t : SyntaxNode) : t.bare.walk = t.walk.map bare := by
  have placed := Placed.walk_bare ⟨t, none⟩
  rw [Placed.bare, Option.map_none] at placed
  rw [walk, placed, walk, List.map_map, List.map_map]
  rfl

@[simp] theorem events_bare (t : SyntaxNode) : t.bare.events = t.events.map Event.bare :=
  Event.eventsFrom_map_bare [.enter t]

end Tree

end RenderFlow
