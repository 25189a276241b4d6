import RenderFlow.Proofs.Syntax.Reach

/-!
The order of places. Positions grow with the offsets that they come from, so where the nodes of a tree
start one after another, a walk goes through places that never step back. Main statement:
`Tree.InSourceOrder.inOrder_walk`.
-/
namespace RenderFlow

open scoped List

namespace Position

def NotAfter (p q : Position) : Prop :=
  p.line < q.line ∨ p.line = q.line ∧ p.column ≤ q.column

def InOrder (places : List Position) : Prop :=
  places.Pairwise NotAfter

theorem InOrder.sublist {places others : List Position} (order : InOrder others)
    (part : places <+ others) : InOrder places :=
  List.Pairwise.sublist part order

/-- What is read in addition either ends a line or makes the last line longer. -/
theorem notAfter_ofOffset (bytes : List UInt8) {m n : Nat} (earlier : m ≤ n) :
    (ofOffset bytes m).NotAfter (ofOffset bytes n) := by
  obtain ⟨between, whole⟩ := List.take_prefix_take_left (l := bytes) earlier
  have lines : (bytes.take n).count 10 = (bytes.take m).count 10 + between.count 10 := by
    rw [← whole, List.count_append]
  by_cases ends : 10 ∈ between
  · have more : 0 < between.count 10 := List.count_pos_iff.mpr ends
    refine .inl ?_
    simp only [ofOffset]
    omega
  · have none_more : between.count 10 = 0 := List.count_eq_zero.mpr ends
    have inLine : ∀ byte ∈ between.reverse, (byte != 10) = true := by
      intro byte within
      have other : byte ≠ 10 := fun same => ends (same ▸ List.mem_reverse.mp within)
      simpa using other
    have columns : ((bytes.take n).reverse.takeWhile (· != 10)).length =
        between.length + ((bytes.take m).reverse.takeWhile (· != 10)).length := by
      rw [← whole, List.reverse_append, List.takeWhile_append_of_pos inLine, List.length_append,
        List.length_reverse]
    refine .inr ?_
    simp only [ofOffset]
    omega

end Position

namespace Tree

variable {bytes : List UInt8} {tree : Tree Span}

/-- Among all nodes, each before what is below it, none starts earlier than one before it. -/
def InSourceOrder (tree : Tree Span) : Prop :=
  tree.parts.Pairwise fun t u => t.label.start ≤ u.label.start

instance (tree : Tree Span) : Decidable tree.InSourceOrder :=
  inferInstanceAs (Decidable (List.Pairwise _ _))

theorem InSourceOrder.inOrder_parts (order : tree.InSourceOrder) (bytes : List UInt8) :
    Position.InOrder ((tree.resolve bytes).parts.map position) := by
  have places : (tree.resolve bytes).parts.map position =
      tree.parts.map fun u => Position.ofOffset bytes u.label.start :=
    map_parts_resolveUnder (fun _ ⟨_, _⟩ => rfl) _ tree
  rw [places]
  exact List.pairwise_map.mpr (order.imp fun earlier => Position.notAfter_ofOffset bytes earlier)

theorem InSourceOrder.inOrder_walk (order : tree.InSourceOrder) {t : SyntaxNode}
    (inside : t ∈ (tree.resolve bytes).parts) : Position.InOrder (t.walk.map position) :=
  (order.inOrder_parts bytes).sublist
    ((t.walk_sublist_parts.trans (parts_sublist _ inside)).map position)

end Tree

section Listing

variable {α : Type} {definedAt : α → Option Position}

def ListedInOrder (definedAt : α → Option Position) (records : List α) : Prop :=
  ∃ places, records.map definedAt = places.map some ∧ Position.InOrder places

theorem ListedInOrder.nil : ListedInOrder definedAt [] :=
  ⟨[], rfl, List.Pairwise.nil⟩

theorem ListedInOrder.of_sublist {records : List α} {places : List Position}
    (taken : records.map definedAt <+ places.map some) (order : Position.InOrder places) :
    ListedInOrder definedAt records := by
  obtain ⟨own, part, same⟩ := List.sublist_map_iff.mp taken
  exact ⟨own, same, order.sublist part⟩

end Listing

end RenderFlow
