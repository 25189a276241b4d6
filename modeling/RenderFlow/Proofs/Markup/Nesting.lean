import RenderFlow.Proofs.Markup.Scan

/-!
How the records of a forest hang together: each one hangs from an earlier record and is one deeper, or
it is at the top.
-/
namespace RenderFlow

/-- Every record hangs from an earlier one and is one deeper, unless it hangs from `parent`, as the
records at `depth` do. -/
def Nested (parent : Option String) (depth : Int) (es : List Element) : Prop :=
  ∀ before e after, es = before ++ e :: after →
    e.parentId = parent ∧ e.depth = depth ∨
      ∃ d ∈ before, e.parentId = some d.id ∧ e.depth = d.depth + 1

namespace Nested

variable {parent : Option String} {depth : Int} {es : List Element}

theorem nil : Nested parent depth [] := by
  intro before e after split
  simp at split

theorem append {left right : List Element} (first : Nested parent depth left)
    (second : Nested parent depth right) : Nested parent depth (left ++ right) := by
  intro before e after split
  rcases List.append_eq_append_iff.mp split with ⟨passed, rfl, later⟩ | ⟨rest, earlier, later⟩
  · refine (second passed e after later).imp id ?_
    rintro ⟨d, within, below⟩
    exact ⟨d, List.mem_append_right left within, below⟩
  · cases rest with
    | nil =>
      rw [List.append_nil] at earlier
      subst earlier
      refine (second [] e after later.symm).imp id ?_
      rintro ⟨d, within, -⟩
      cases within
    | cons head rest =>
      obtain ⟨rfl, -⟩ := List.cons.inj later
      exact first before e rest earlier

theorem cons {e : Element} (parented : e.parentId = parent) (deep : e.depth = depth)
    (below : Nested (some e.id) (depth + 1) es) : Nested parent depth (e :: es) := by
  intro before d after split
  cases before with
  | nil =>
    obtain ⟨rfl, -⟩ := List.cons.inj split
    exact .inl ⟨parented, deep⟩
  | cons head before =>
    obtain ⟨rfl, later⟩ := List.cons.inj split
    right
    rcases below before d after later with ⟨top, depth_eq⟩ | ⟨c, within, hangs⟩
    · exact ⟨e, List.mem_cons_self, top, by rw [depth_eq, deep]⟩
    · exact ⟨c, List.mem_cons_of_mem e within, hangs⟩

theorem depth_bounds (nested : Nested parent depth es) {before after : List Element} {e : Element}
    (split : es = before ++ e :: after) :
    depth ≤ e.depth ∧ e.depth ≤ depth + before.length := by
  induction size : before.length using Nat.strongRecOn generalizing before e after with
  | _ n ih =>
    rcases nested before e after split with ⟨-, top⟩ | ⟨d, within, -, below⟩
    · constructor <;> omega
    · obtain ⟨front, back, rfl⟩ := List.append_of_mem within
      have shorter : front.length < n := by simp at size; omega
      have bounds := ih front.length shorter (by simpa using split) rfl
      constructor <;> omega

end Nested

namespace Tree

mutual

theorem nested_records (parent : Option String) (depth number : Nat) :
    ∀ t : Tree Markup, Nested parent depth (records parent depth number t)
  | .node m below => by
    rw [records]
    exact .cons rfl rfl (nested_recordsAll (some s!"jsx-{number}") (depth + 1) (number + 1) below)

theorem nested_recordsAll (parent : Option String) (depth number : Nat) :
    ∀ ts : List (Tree Markup), Nested parent depth (recordsAll parent depth number ts)
  | [] => .nil
  | t :: rest => by
    rw [recordsAll]
    exact (nested_records parent depth number t).append
      (nested_recordsAll parent depth (number + t.size) rest)

end

theorem nested_elements (root : SyntaxNode) : Nested none 0 root.elements := by
  rw [elements_eq]
  exact nested_recordsAll none 0 1 root.markup

theorem ids_elements (root : SyntaxNode) :
    root.elements.map (·.id) =
      (List.range' 1 root.elements.length).map fun n => s!"jsx-{n}" := by
  rw [elements_eq, flatten, ids_recordsAll, length_recordsAll]

theorem depth_nonneg {root : SyntaxNode} {e : Element} (within : e ∈ root.elements) :
    0 ≤ e.depth := by
  obtain ⟨before, after, split⟩ := List.append_of_mem within
  exact ((nested_elements root).depth_bounds split).1

theorem depth_eq_zero_iff {root : SyntaxNode} {e : Element} (within : e ∈ root.elements) :
    e.depth = 0 ↔ e.parentId = none := by
  obtain ⟨before, after, split⟩ := List.append_of_mem within
  rcases nested_elements root before e after split with ⟨top, deep⟩ | ⟨d, earlier, below, deep⟩
  · simp [top, deep]
  · have held : d ∈ root.elements := split ▸ List.mem_append_left _ earlier
    have nonneg := depth_nonneg held
    simp only [below, reduceCtorEq, iff_false]
    omega

end Tree

end RenderFlow
