import Mathlib.Data.List.Flatten
import RenderFlow.Proofs.Syntax.Induction

/-!
All nodes of a tree, comments and tokens included. A tree has as many of them as its size says, and
whatever an analysis reaches by going down is among them.
-/
namespace RenderFlow.Tree

open scoped List

variable {α : Type}

mutual

def parts : Tree α → List (Tree α)
  | .node l cs => .node l cs :: partsAll cs

def partsAll : List (Tree α) → List (Tree α)
  | [] => []
  | t :: rest => parts t ++ partsAll rest

end

mutual

@[simp] theorem length_parts : ∀ t : Tree α, t.parts.length = t.size
  | .node l cs => by rw [parts, List.length_cons, length_partsAll, size]

@[simp] theorem length_partsAll : ∀ ts : List (Tree α), (partsAll ts).length = sizeAll ts
  | [] => rfl
  | t :: rest => by rw [partsAll, List.length_append, length_parts, length_partsAll, sizeAll]

end

theorem parts_eq (t : Tree α) : t.parts = t :: partsAll t.children := by
  cases t
  rw [parts]
  rfl

theorem partsAll_eq (ts : List (Tree α)) : partsAll ts = ts.flatMap parts := by
  induction ts with
  | nil => rfl
  | cons t rest ih => rw [partsAll, ih, List.flatMap_cons]

theorem mem_parts_self (t : Tree α) : t ∈ t.parts := by
  rw [parts_eq]
  exact List.mem_cons_self

theorem parts_subset_of_child {t c : Tree α} (child : c ∈ t.children) : c.parts ⊆ t.parts := by
  intro s within
  rw [parts_eq t, partsAll_eq]
  exact List.mem_cons_of_mem t (List.mem_flatMap.mpr ⟨c, child, within⟩)

theorem mem_parts_of_child {t c : Tree α} (child : c ∈ t.children) : c ∈ t.parts :=
  parts_subset_of_child child (mem_parts_self c)

mutual

theorem parts_sublist : ∀ (t : Tree α) {s : Tree α}, s ∈ t.parts → s.parts <+ t.parts
  | .node l cs, s, within => by
    rw [parts] at within
    rcases List.mem_cons.mp within with rfl | deeper
    · exact List.Sublist.refl _
    · rw [parts]
      exact (partsAll_sublist cs deeper).cons _

theorem partsAll_sublist : ∀ (ts : List (Tree α)) {s : Tree α}, s ∈ partsAll ts →
    s.parts <+ partsAll ts
  | [], _, within => by cases within
  | t :: rest, s, within => by
    rw [partsAll] at within ⊢
    rcases List.mem_append.mp within with first | later
    · exact (parts_sublist t first).trans (List.sublist_append_left _ _)
    · exact (partsAll_sublist rest later).trans (List.sublist_append_right _ _)

end

theorem parts_trans (t : Tree α) {s : Tree α} (within : s ∈ t.parts) : s.parts ⊆ t.parts :=
  (parts_sublist t within).subset

mutual

theorem parts_perm : ∀ t : Tree α, t.parts ~ t :: t.parts.flatMap children
  | .node l cs => by
    rw [parts, List.flatMap_cons]
    exact (partsAll_perm cs).cons _

theorem partsAll_perm : ∀ ts : List (Tree α), partsAll ts ~ ts ++ (partsAll ts).flatMap children
  | [] => .refl []
  | t :: rest => by
    rw [partsAll, List.flatMap_append, List.cons_append]
    calc parts t ++ partsAll rest
        ~ (t :: (parts t).flatMap children) ++ (rest ++ (partsAll rest).flatMap children) :=
          (parts_perm t).append (partsAll_perm rest)
      _ ~ t :: (rest ++ ((parts t).flatMap children ++ (partsAll rest).flatMap children)) := by
          rw [List.cons_append]
          exact (List.perm_append_comm_assoc _ _ _).cons t

end

theorem size_le_of_mem_children {t c : Tree α} (child : c ∈ t.children) : c.size ≤ t.size :=
  Nat.le_of_lt (size_lt_of_mem_children child)

theorem size_le_of_mem_parts {t s : Tree α} (within : s ∈ t.parts) : s.size ≤ t.size := by
  rw [parts_eq, partsAll_eq] at within
  rcases List.mem_cons.mp within with rfl | deeper
  · exact Nat.le_refl _
  · obtain ⟨c, child, below⟩ := List.mem_flatMap.mp deeper
    exact Nat.le_trans (size_le_of_mem_parts below) (size_le_of_mem_children child)
termination_by t.size
decreasing_by exact size_lt_of_mem_children child

theorem length_children_lt (t : Tree α) : t.children.length < t.size := by
  have all (ts : List (Tree α)) : ts.length ≤ sizeAll ts := by
    induction ts with
    | nil => simp
    | cons c rest ih =>
      rw [List.length_cons, sizeAll, size_eq]
      omega
  have := all t.children
  rw [size_eq]
  omega

theorem walk_sublist_parts (t : SyntaxNode) : t.walk <+ t.parts := by
  induction t using visibleInduction with
  | step t ih =>
    rw [walk_eq, parts_eq, partsAll_eq]
    refine List.Sublist.cons_cons t ?_
    exact (List.Sublist.flatMap_right _ ih).trans (List.filter_sublist.flatMap parts)

theorem walk_subset_parts (t : SyntaxNode) : t.walk ⊆ t.parts :=
  t.walk_sublist_parts.subset

theorem map_node_walk (p : Placed) : p.walk.map (·.node) = p.node.walk :=
  Placed.map_node_walkFrom rfl

theorem mem_children_of_child? {t c : SyntaxNode} {field : String}
    (found : t.child? field = some c) : c ∈ t.children :=
  List.mem_of_find?_eq_some found

mutual

theorem size_resolveUnder (bytes : List UInt8) :
    ∀ (field : Option String) (t : Tree Span), (resolveUnder bytes field t).size = t.size
  | _, .node s cs => by rw [resolveUnder, size, size, sizeAll_resolveAll]

theorem sizeAll_resolveAll (bytes : List UInt8) :
    ∀ (taken : List String) (ts : List (Tree Span)),
      sizeAll (resolveAll bytes taken ts) = sizeAll ts
  | _, [] => rfl
  | _, t :: rest => by
    rw [resolveAll, sizeAll, sizeAll, size_resolveUnder, sizeAll_resolveAll]

end

@[simp] theorem size_resolve (bytes : List UInt8) (t : Tree Span) :
    (t.resolve bytes).size = t.size :=
  size_resolveUnder bytes _ t

mutual

/-- Resolving keeps the order of the nodes, and what does not depend on a node's field can be read
off before it. -/
theorem map_parts_resolveUnder {β : Type} {bytes : List UInt8} {f : SyntaxNode → β}
    {g : Tree Span → β} (same : ∀ field t, f (resolveUnder bytes field t) = g t) :
    ∀ (field : Option String) (t : Tree Span),
      (resolveUnder bytes field t).parts.map f = t.parts.map g
  | field, .node s cs => by
    rw [parts_eq, parts_eq, List.map_cons, List.map_cons, same]
    exact congrArg _ (map_partsAll_resolveAll same [] cs)

theorem map_partsAll_resolveAll {β : Type} {bytes : List UInt8} {f : SyntaxNode → β}
    {g : Tree Span → β} (same : ∀ field t, f (resolveUnder bytes field t) = g t) :
    ∀ (taken : List String) (ts : List (Tree Span)),
      (partsAll (resolveAll bytes taken ts)).map f = (partsAll ts).map g
  | _, [] => rfl
  | taken, t :: rest => by
    rw [resolveAll, partsAll, partsAll, List.map_append, List.map_append,
      map_parts_resolveUnder same, map_partsAll_resolveAll same]

end

end RenderFlow.Tree
