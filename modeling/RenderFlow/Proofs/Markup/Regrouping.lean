import Std.Data.String.ToNat
import RenderFlow.Proofs.Markup.Nesting

/-!
From the flat list of records back to the forest, by nothing but the ids and the ids of the parents.
Main statement: `Tree.elements_roundTrip`.
-/
namespace RenderFlow

/-- The trees of the records that hang from `parent`, with the records that hang from those below
them, and so on for some levels. -/
def regroup (es : List Element) : Nat → Option String → List (Tree Markup)
  | 0, _ => []
  | levels + 1, parent =>
    (es.filter (·.parentId == parent)).map fun e =>
      .node (.ofElement e) (regroup es levels (some e.id))

namespace Tree

theorem elementId_injective {m n : Nat} (same : s!"jsx-{m}" = s!"jsx-{n}") : m = n := by
  simpa [Nat.repr_inj] using same

def idsFrom (number count : Nat) (id : Option String) : Prop :=
  ∃ n, number ≤ n ∧ n < number + count ∧ id = some s!"jsx-{n}"

theorem not_idsFrom_none (number count : Nat) : ¬ idsFrom number count none := by
  rintro ⟨n, -, -, same⟩
  cases same

theorem idsFrom_iff {number count n : Nat} :
    idsFrom number count (some s!"jsx-{n}") ↔ number ≤ n ∧ n < number + count := by
  constructor
  · rintro ⟨m, low, high, same⟩
    rw [elementId_injective (Option.some.inj same)]
    exact ⟨low, high⟩
  · rintro ⟨low, high⟩
    exact ⟨n, low, high, rfl⟩

theorem idsFrom.mono {number count start total : Nat} {id : Option String}
    (within : idsFrom number count id) (low : start ≤ number)
    (high : number + count ≤ start + total) : idsFrom start total id := by
  obtain ⟨n, above, below, rfl⟩ := within
  exact ⟨n, by omega, by omega, rfl⟩

mutual

theorem filter_records_eq_nil (parent : Option String) (depth number : Nat) {id : Option String} :
    ∀ t : Tree Markup, id ≠ parent → ¬ idsFrom number t.size id →
      (records parent depth number t).filter (·.parentId == id) = []
  | .node m below, other, outside => by
    have inner : id ≠ some s!"jsx-{number}" := by
      rintro rfl
      exact outside (idsFrom_iff.mpr ⟨Nat.le_refl _, by rw [size]; omega⟩)
    have deeper : ¬ idsFrom (number + 1) (sizeAll below) id := fun within =>
      outside (within.mono (Nat.le_succ number) (by rw [size]; omega))
    rw [records, List.filter_cons_of_neg (by simpa [Markup.record] using Ne.symm other)]
    exact filter_recordsAll_eq_nil _ _ _ below inner deeper

theorem filter_recordsAll_eq_nil (parent : Option String) (depth number : Nat)
    {id : Option String} :
    ∀ ts : List (Tree Markup), id ≠ parent → ¬ idsFrom number (sizeAll ts) id →
      (recordsAll parent depth number ts).filter (·.parentId == id) = []
  | [], _, _ => rfl
  | t :: rest, other, outside => by
    have first : ¬ idsFrom number t.size id := fun within =>
      outside (within.mono (Nat.le_refl _) (by rw [sizeAll]; omega))
    have later : ¬ idsFrom (number + t.size) (sizeAll rest) id := fun within =>
      outside (within.mono (Nat.le_add_right _ _) (by rw [sizeAll]; omega))
    rw [recordsAll, List.filter_append, filter_records_eq_nil _ _ _ t other first,
      filter_recordsAll_eq_nil _ _ _ rest other later, List.append_nil]

end

/-- Of a forest's records just those below a node hang from it or from one of them. -/
theorem filter_recordsAll_below {parent id : Option String} {depth number : Nat} {m : Markup}
    {left below right : List (Tree Markup)}
    (outside : ¬ idsFrom number (sizeAll (left ++ .node m below :: right)) parent)
    (within : idsFrom (number + sizeAll left) (sizeAll below + 1) id) :
    (recordsAll parent depth number (left ++ .node m below :: right)).filter (·.parentId == id) =
      (recordsAll (some s!"jsx-{number + sizeAll left}") (depth + 1) (number + sizeAll left + 1)
        below).filter (·.parentId == id) := by
  simp only [sizeAll_append, sizeAll, size] at outside
  have other : id ≠ parent := by
    rintro rfl
    exact outside (within.mono (Nat.le_add_right _ _) (by omega))
  obtain ⟨n, low, high, rfl⟩ := within
  have notLeft : ¬ idsFrom number (sizeAll left) (some s!"jsx-{n}") := by
    rw [idsFrom_iff]
    omega
  have notRight : ¬ idsFrom (number + sizeAll left + (Tree.node m below).size) (sizeAll right)
      (some s!"jsx-{n}") := by
    rw [idsFrom_iff, size]
    omega
  rw [recordsAll_append, recordsAll, records, List.filter_append, List.filter_append,
    filter_recordsAll_eq_nil _ _ _ left other notLeft,
    filter_recordsAll_eq_nil _ _ _ right other notRight,
    List.filter_cons_of_neg (by simpa [Markup.record] using Ne.symm other), List.nil_append,
    List.append_nil]

theorem filter_recordsAll_cons {parent : Option String} {depth number : Nat} {m : Markup}
    {below rest : List (Tree Markup)}
    (outside : ¬ idsFrom number (sizeAll (.node m below :: rest)) parent) :
    (recordsAll parent depth number (.node m below :: rest)).filter (·.parentId == parent) =
      m.record parent depth number ::
        (recordsAll parent depth (number + (Tree.node m below).size) rest).filter
          (·.parentId == parent) := by
  simp only [sizeAll, size] at outside
  have inner : parent ≠ some s!"jsx-{number}" := by
    rintro rfl
    exact outside (idsFrom_iff.mpr ⟨Nat.le_refl _, by omega⟩)
  have deeper : ¬ idsFrom (number + 1) (sizeAll below) parent := fun within =>
    outside (within.mono (Nat.le_succ number) (by omega))
  rw [recordsAll, records, List.cons_append, List.filter_cons_of_pos (by simp [Markup.record]),
    List.filter_append, filter_recordsAll_eq_nil _ _ _ below inner deeper, List.nil_append]

/-- The list holds the records of a forest and nothing else that hangs from its parent or from one
of its own elements. -/
def Holds (es : List Element) (parent : Option String) (depth number : Nat)
    (forest : List (Tree Markup)) : Prop :=
  ∀ id, id = parent ∨ idsFrom number (sizeAll forest) id →
    es.filter (·.parentId == id) =
      (recordsAll parent depth number forest).filter (·.parentId == id)

theorem Holds.below {es : List Element} {parent : Option String} {depth number : Nat} {m : Markup}
    {left below right : List (Tree Markup)}
    (holds : Holds es parent depth number (left ++ .node m below :: right))
    (outside : ¬ idsFrom number (sizeAll (left ++ .node m below :: right)) parent) :
    Holds es (some s!"jsx-{number + sizeAll left}") (depth + 1) (number + sizeAll left + 1)
      below := by
  intro id hangs
  have within : idsFrom (number + sizeAll left) (sizeAll below + 1) id := by
    rcases hangs with rfl | deeper
    · exact idsFrom_iff.mpr ⟨Nat.le_refl _, by omega⟩
    · exact deeper.mono (Nat.le_succ _) (by omega)
  have inside : idsFrom number (sizeAll (left ++ .node m below :: right)) id := by
    refine within.mono (Nat.le_add_right _ _) ?_
    simp only [sizeAll_append, sizeAll, size]
    omega
  rw [holds id (.inr inside), filter_recordsAll_below outside within]

/-- Every level of the forest comes out of the records in turn. -/
theorem regroup_eq {es : List Element} {levels : Nat} {parent : Option String}
    {depth number : Nat} {forest : List (Tree Markup)} (enough : sizeAll forest ≤ levels)
    (outside : ¬ idsFrom number (sizeAll forest) parent)
    (holds : Holds es parent depth number forest) : regroup es levels parent = forest := by
  induction levels generalizing parent depth number forest with
  | zero =>
    cases forest with
    | nil => rfl
    | cons t rest =>
      rw [sizeAll, size_eq] at enough
      omega
  | succ levels ih =>
    rw [regroup, holds parent (.inl rfl)]
    -- The trees to the left of a tree shift the numbers of its records.
    have each : ∀ left right, forest = left ++ right →
        ((recordsAll parent depth (number + sizeAll left) right).filter
          (·.parentId == parent)).map (fun e =>
            .node (.ofElement e) (regroup es levels (some e.id))) = right := by
      intro left right split
      induction right generalizing left with
      | nil => rfl
      | cons t right others =>
        obtain ⟨m, below⟩ := t
        subst split
        have apart : ¬ idsFrom (number + sizeAll left) (sizeAll (.node m below :: right)) parent :=
          fun within => outside (within.mono (Nat.le_add_right _ _) (by
            rw [sizeAll_append]
            omega))
        have smaller : sizeAll below ≤ levels := by
          simp only [sizeAll_append, sizeAll, size] at enough
          omega
        have apartBelow : ¬ idsFrom (number + sizeAll left + 1) (sizeAll below)
            (some s!"jsx-{number + sizeAll left}") := by
          rw [idsFrom_iff]
          omega
        have later := others (left ++ [.node m below]) (by simp)
        rw [sizeAll_append, sizeAll, sizeAll, Nat.add_zero, ← Nat.add_assoc] at later
        rw [filter_recordsAll_cons apart, List.map_cons, later, Markup.ofElement_record]
        exact congrArg (Tree.node m · :: right) (ih smaller apartBelow (holds.below outside))
    exact each [] forest rfl

/-- The elements are the markup forest in document order, numbered from one. Each has a parent before
it and is one deeper, unless it is at the top, and the parents tell the forest again. While the forest
is scanned, only what is open is closed, and in the end nothing is open. -/
theorem elements_roundTrip (root : SyntaxNode) :
    MarkupScan.run root = .ok { elements := root.elements, opened := {} } ∧
    root.elements = flatten root.markup ∧
    root.elements.map (·.id) =
      (List.range' 1 root.elements.length).map (fun n => s!"jsx-{n}") ∧
    (∀ before e after, root.elements = before ++ e :: after →
      (e.depth = 0 ↔ e.parentId = none) ∧
      ∀ p, e.parentId = some p → ∃ d ∈ before, d.id = p ∧ e.depth = d.depth + 1) ∧
    regroup root.elements root.elements.length none = root.markup := by
  have flat := elements_eq root
  refine ⟨flat ▸ MarkupScan.run_eq root, flat, ids_elements root, ?_, ?_⟩
  · intro before e after split
    have within : e ∈ root.elements := split ▸ List.mem_append_right _ List.mem_cons_self
    refine ⟨depth_eq_zero_iff within, ?_⟩
    intro p below
    rcases nested_elements root before e after split with ⟨top, -⟩ | ⟨d, earlier, same, deep⟩
    · rw [top] at below
      cases below
    · rw [below] at same
      exact ⟨d, earlier, (Option.some.inj same).symm, deep⟩
  · rw [flat, flatten]
    have enough := Nat.le_of_eq (length_recordsAll none 0 1 root.markup).symm
    exact regroup_eq enough (not_idsFrom_none _ _) fun id _ => rfl

end Tree

end RenderFlow
