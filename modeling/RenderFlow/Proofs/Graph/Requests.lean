import RenderFlow.Graph.Request
import RenderFlow.Proofs.Graph.Ties

/-!
What requests make of a builder. Nodes are only ever added (`Builder.Grows`), and a request for an
edge adds one wire or nothing: `Builder.edgeRequest_cases`.
-/
namespace RenderFlow.Graph

theorem exists_ok_of_bind {α β : Type} {first : Except Fault α} {next : α → Except Fault β} {b : β}
    (done : first >>= next = .ok b) : ∃ a, first = .ok a ∧ next a = .ok b := by
  cases first with
  | error fault => cases done
  | ok a => exact ⟨a, rfl, done⟩

namespace Builder

structure Grows (b c : Builder) : Prop where
  nodes : ∃ more, c.nodes = b.nodes ++ more ∧ ∀ n ∈ more, n.written = none
  edges : c.edges = b.edges
  distinct : (nodeIds b.nodes).Nodup → (nodeIds c.nodes).Nodup

theorem Grows.refl (b : Builder) : b.Grows b :=
  ⟨⟨[], by simp⟩, rfl, id⟩

theorem Grows.trans {a b c : Builder} (first : a.Grows b) (second : b.Grows c) : a.Grows c := by
  obtain ⟨more, longer, unwritten⟩ := first.nodes
  obtain ⟨others, longest, unwritten'⟩ := second.nodes
  refine ⟨⟨more ++ others, ?_, ?_⟩, second.edges.trans first.edges,
    fun distinct => second.distinct (first.distinct distinct)⟩
  · rw [longest, longer, List.append_assoc]
  · exact fun n within => (List.mem_append.mp within).elim (unwritten n) (unwritten' n)

theorem grows_addNode (b : Builder) {n : Node} (unwritten : n.written = none) :
    b.Grows (b.addNode n).1 := by
  rw [addNode_eq]
  refine ⟨⟨_, rfl, fun m new => ?_⟩, rfl, fun distinct => ?_⟩
  · rw [List.mem_singleton.mp (mem_of_mem_newcomers new).1, unwritten]
  · rw [nodeIds_append]
    exact nodup_append_newcomers distinct [n]

theorem written_of_node {r : ColumnRequest} {index : Nat} {row : List Json} {n : Node}
    (made : r.node index row = .ok n) : n.written = none := by
  unfold ColumnRequest.node at made
  split at made
  · obtain ⟨kind, -, made⟩ := exists_ok_of_bind made
    obtain ⟨y, -, made⟩ := exists_ok_of_bind made
    obtain ⟨-, -, made⟩ := exists_ok_of_bind made
    obtain ⟨label, -, made⟩ := exists_ok_of_bind made
    obtain ⟨x, -, made⟩ := exists_ok_of_bind made
    obtain ⟨info, -, made⟩ := exists_ok_of_bind made
    cases made
    rfl
  · cases made

theorem grows_stackRows (b : Builder) (r : ColumnRequest) (index : Nat) (rows : List (List Json)) :
    b.Grows (b.stackRows r index rows).1 := by
  induction rows generalizing b index with
  | nil => exact .refl b
  | cons row rest ih =>
    rw [stackRows]
    cases made : r.node index row with
    | error fault => exact .refl b
    | ok n => exact (b.grows_addNode (written_of_node made)).trans (ih _ (index + 1))

theorem grows_stackRequest (b : Builder) (r : ColumnRequest) : b.Grows (b.stackRequest r).1 := by
  unfold stackRequest
  split
  · exact b.grows_stackRows r 0 _
  · exact .refl b

theorem edgeRequest_eq {b : Builder} {r : EdgeRequest} {added : Builder × Option Edge}
    (asked : b.edgeRequest r = .ok added) :
    added = (b, none) ∨ ∃ id source target kind label, r.source = some source ∧
      r.target = some target ∧ added = b.addEdge id (some source) (some target) kind label := by
  unfold edgeRequest at asked
  split at asked
  · rename_i source target left right
    obtain ⟨-, -, asked⟩ := exists_ok_of_bind asked
    split at asked
    · obtain ⟨-, -, asked⟩ := exists_ok_of_bind asked
      obtain ⟨id, -, asked⟩ := exists_ok_of_bind asked
      obtain ⟨kind, -, asked⟩ := exists_ok_of_bind asked
      obtain ⟨label, -, asked⟩ := exists_ok_of_bind asked
      exact .inr ⟨id, source, target, kind, label, left, right, (Except.ok.inj asked).symm⟩
    · exact .inl (Except.ok.inj asked).symm
  · exact .inl (Except.ok.inj asked).symm

theorem edgeRequest_cases {b c : Builder} {r : EdgeRequest} {e : Option Edge}
    (asked : b.edgeRequest r = .ok (c, e)) :
    c = b ∨ ∃ w : Wire, r.source = some w.source ∧ r.target = some w.target ∧ c = b.addWire w := by
  rcases edgeRequest_eq asked with same | ⟨id, source, target, kind, label, left, right, same⟩
  · exact .inl (congrArg Prod.fst same)
  · exact .inr ⟨⟨id, source, target, kind, label⟩, left, right, congrArg Prod.fst same⟩

end Builder

end RenderFlow.Graph
