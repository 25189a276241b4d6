import RenderFlow.Proofs.Syntax.Parts

/-!
What a walk reaches and what it knows of each node. A walk meets every visible child of what it meets,
and every node but the first as a visible child of one (`Placed.parent_of_mem_walk`). In a resolved
tree a field leads to its only bearer (`Tree.child?_of_mem_resolve`).
-/
namespace RenderFlow

namespace Placed

theorem walkInduction {P : Placed → Prop} (step : ∀ p, (∀ c ∈ p.visibleChildren, P c) → P p)
    (p : Placed) : P p :=
  step p fun c below => by
    obtain ⟨t, visible, same⟩ := List.mem_map.mp below
    have smaller : c.node.size < p.node.size := by
      rw [← same]
      exact Tree.size_lt_of_mem_visibleChildren visible
    exact walkInduction step c
termination_by p.node.size

theorem mem_walk_self (p : Placed) : p ∈ p.walk := by
  rw [walk_eq]
  exact List.mem_cons_self

theorem mem_walk_of_visibleChild {p c q : Placed} (below : c ∈ p.visibleChildren)
    (walked : q ∈ c.walk) : q ∈ p.walk := by
  rw [walk_eq]
  exact List.mem_cons_of_mem p (List.mem_flatMap.mpr ⟨c, below, walked⟩)

theorem parent_of_mem_walk {p q : Placed} (walked : q ∈ p.walk) :
    q = p ∨ ∃ r ∈ p.walk, q ∈ r.visibleChildren := by
  induction p using walkInduction with
  | step p ih =>
    rw [walk_eq] at walked
    rcases List.mem_cons.mp walked with rfl | deeper
    · exact .inl rfl
    · obtain ⟨c, child, within⟩ := List.mem_flatMap.mp deeper
      rcases ih c child within with rfl | ⟨r, met, below⟩
      · exact .inr ⟨p, mem_walk_self p, child⟩
      · exact .inr ⟨r, mem_walk_of_visibleChild child met, below⟩

theorem node_mem_walk {p q : Placed} (walked : q ∈ p.walk) : q.node ∈ p.node.walk := by
  rw [← Tree.map_node_walk]
  exact List.mem_map_of_mem walked

theorem mem_children_of_visibleChild {p c : Placed} (below : c ∈ p.visibleChildren) :
    c.parent = some p.node ∧ c.node ∈ p.node.visibleChildren := by
  obtain ⟨t, visible, rfl⟩ := List.mem_map.mp below
  exact ⟨rfl, visible⟩

end Placed

namespace Tree

theorem mem_walk_self (t : SyntaxNode) : t ∈ t.walk := by
  rw [walk_eq]
  exact List.mem_cons_self

theorem mem_walk_of_visibleChild {t c s : SyntaxNode} (child : c ∈ t.visibleChildren)
    (walked : s ∈ c.walk) : s ∈ t.walk := by
  rw [walk_eq]
  exact List.mem_cons_of_mem t (List.mem_flatMap.mpr ⟨c, child, walked⟩)

variable {bytes : List UInt8}

mutual

theorem exists_of_mem_parts_resolveUnder : ∀ (field : Option String) (t : Tree Span)
    {s : SyntaxNode}, s ∈ (resolveUnder bytes field t).parts →
      ∃ u ∈ t.parts, ∃ own, s = resolveUnder bytes own u
  | field, .node l cs, s, within => by
    rw [resolveUnder, parts] at within
    rcases List.mem_cons.mp within with rfl | deeper
    · exact ⟨.node l cs, mem_parts_self _, field, by rw [resolveUnder]⟩
    · obtain ⟨u, part, own, same⟩ := exists_of_mem_parts_resolveAll [] cs deeper
      refine ⟨u, ?_, own, same⟩
      rw [parts]
      exact List.mem_cons_of_mem _ part

theorem exists_of_mem_parts_resolveAll : ∀ (taken : List String) (ts : List (Tree Span))
    {s : SyntaxNode}, s ∈ partsAll (resolveAll bytes taken ts) →
      ∃ u ∈ partsAll ts, ∃ own, s = resolveUnder bytes own u
  | taken, [], s, within => by
    cases within
  | taken, t :: rest, s, within => by
    rw [resolveAll, partsAll] at within
    rcases List.mem_append.mp within with first | later
    · obtain ⟨u, part, own, same⟩ := exists_of_mem_parts_resolveUnder _ t first
      exact ⟨u, by rw [partsAll]; exact List.mem_append_left _ part, own, same⟩
    · obtain ⟨u, part, own, same⟩ := exists_of_mem_parts_resolveAll _ rest later
      exact ⟨u, by rw [partsAll]; exact List.mem_append_right _ part, own, same⟩

end

theorem label_resolveUnder (field : Option String) (t : Tree Span) :
    (resolveUnder bytes field t).label = t.label.read bytes field := by
  cases t
  rfl

theorem children_resolveUnder (field : Option String) (t : Tree Span) :
    (resolveUnder bytes field t).children = resolveAll bytes [] t.children := by
  cases t
  rfl

/-- A field goes to its first bearer, so the first child with it is the only one. -/
theorem find?_resolveAll {taken : List String} {ts : List (Tree Span)} {c : SyntaxNode}
    {field : String} (child : c ∈ resolveAll bytes taken ts) (named : c.label.field = some field) :
    field ∉ taken ∧ (resolveAll bytes taken ts).find? (·.label.field == some field) = some c := by
  induction ts generalizing taken with
  | nil => cases child
  | cons t rest ih =>
    rw [resolveAll] at child ⊢
    rcases List.mem_cons.mp child with rfl | later
    · rw [label_resolveUnder] at named
      have free : field ∉ taken := by
        simpa using (Option.filter_eq_some_iff.mp named).2
      refine ⟨free, List.find?_cons_of_pos ?_⟩
      rw [label_resolveUnder, beq_iff_eq]
      exact named
    · obtain ⟨free, found⟩ := ih later
      rw [List.mem_append, not_or, Option.mem_toList] at free
      refine ⟨free.2, ?_⟩
      rw [List.find?_cons_of_neg, found]
      rw [label_resolveUnder, beq_iff_eq]
      exact free.1

theorem child?_of_mem_resolve {tree : Tree Span} {t c : SyntaxNode} {field : String}
    (part : t ∈ (tree.resolve bytes).parts) (child : c ∈ t.children)
    (named : c.label.field = some field) : t.child? field = some c := by
  obtain ⟨u, -, own, rfl⟩ := exists_of_mem_parts_resolveUnder _ tree part
  rw [children_resolveUnder] at child
  rw [child?, children_resolveUnder]
  exact (find?_resolveAll child named).2

/-- The calls of a tree are named nodes, as a grammar with a rule for calls has them. -/
def NamesCalls (tree : Tree Span) : Prop :=
  ∀ t ∈ tree.parts, t.label.kind = "call_expression" → t.label.named = true

instance (tree : Tree Span) : Decidable tree.NamesCalls :=
  inferInstanceAs (Decidable (∀ t ∈ tree.parts, _ → _))

theorem NamesCalls.visible {tree : Tree Span} (named : tree.NamesCalls) {t : SyntaxNode}
    (part : t ∈ (tree.resolve bytes).parts) (call : t.kind = "call_expression") :
    t.isVisible = true := by
  obtain ⟨u, inside, own, rfl⟩ := exists_of_mem_parts_resolveUnder _ tree part
  have flagged : (resolveUnder bytes own u).label.named = true := by
    rw [kind, label_resolveUnder] at call
    rw [label_resolveUnder]
    exact named u inside call
  rw [isVisible, flagged, call]
  rfl

end Tree

end RenderFlow
