import Mathlib.Data.List.Perm.Basic
import RenderFlow.Proofs.Syntax.Induction

/-!
Where a walk is. A node below another has an address, the numbers of the visible children on the way
down to it. A walk goes through all addresses in their lexicographic order, and after every event the
nodes that are entered and not left are those on the way to the node of the event. Main statement:
`Tree.traversals_visit`.
-/
namespace RenderFlow

open scoped List

/-- The way down to a node: on every level the number of a visible child. -/
abbrev Address := List Nat

inductive Visit where
  | enter (address : Address)
  | leave (address : Address)

namespace Visit

def entered? : Visit → Option Address
  | .enter a => some a
  | .leave _ => none

def left? : Visit → Option Address
  | .enter _ => none
  | .leave a => some a

def below (i : Nat) : Visit → Visit
  | .enter a => .enter (i :: a)
  | .leave a => .leave (i :: a)

/-- The addresses on the way to a visit. A node that is left is not on the way any more. -/
def Passes (a : Address) : Visit → Prop
  | .enter b => a <+: b
  | .leave b => a <+: b ∧ a ≠ b

def IsOpen (a : Address) (seen : List Visit) : Prop :=
  .enter a ∈ seen ∧ .leave a ∉ seen

theorem entered?_below (i : Nat) (v : Visit) : (v.below i).entered? = v.entered?.map (i :: ·) := by
  cases v <;> rfl

theorem left?_below (i : Nat) (v : Visit) : (v.below i).left? = v.left?.map (i :: ·) := by
  cases v <;> rfl

theorem below_eq_below_iff {i j : Nat} {v w : Visit} :
    v.below i = w.below j ↔ i = j ∧ v = w := by
  cases v <;> cases w <;> simp [below]

theorem passes_nil_below (i : Nat) (v : Visit) : Passes [] (v.below i) := by
  cases v <;> simp [below, Passes]

theorem passes_cons_below {i j : Nat} {a : Address} {v : Visit} :
    Passes (i :: a) (v.below j) ↔ i = j ∧ Passes a v := by
  cases v with
  | enter b => exact List.cons_prefix_cons
  | leave b =>
    simp only [below, Passes, List.cons_prefix_cons, ne_eq, List.cons.injEq, not_and, and_assoc]
    exact and_congr_right fun same => and_congr_right fun _ => ⟨(· same), fun other _ => other⟩

end Visit

namespace Event

def entered? : Event → Option SyntaxNode
  | .enter t => some t
  | .leave _ => none

def left? : Event → Option SyntaxNode
  | .enter _ => none
  | .leave t => some t

/-- No more nodes are left than were entered, and in the end as many. -/
structure Balanced (events : List Event) : Prop where
  held : ∀ seen, seen <+: events →
    (seen.filterMap left?).length ≤ (seen.filterMap entered?).length
  settled : (events.filterMap left?).length = (events.filterMap entered?).length

theorem Balanced.nil : Balanced [] := by
  refine ⟨fun seen part => ?_, rfl⟩
  rw [List.prefix_nil.mp part]
  exact Nat.le_refl 0

theorem Balanced.append {first later : List Event} (left : Balanced first)
    (right : Balanced later) : Balanced (first ++ later) := by
  refine ⟨fun seen part => ?_, ?_⟩
  · rcases List.prefix_or_prefix_of_prefix part (List.prefix_append first later) with
      within | ⟨more, rfl⟩
    · exact left.held seen within
    · have := right.held more ((List.prefix_append_right_inj first).mp part)
      have := left.settled
      simp only [List.filterMap_append, List.length_append]
      omega
  · simp only [List.filterMap_append, List.length_append, left.settled, right.settled]

theorem Balanced.flatMap {ts : List SyntaxNode} {f : SyntaxNode → List Event}
    (each : ∀ t ∈ ts, Balanced (f t)) : Balanced (ts.flatMap f) := by
  induction ts with
  | nil => exact .nil
  | cons t rest ih =>
    obtain ⟨first, others⟩ := List.forall_mem_cons.mp each
    exact first.append (ih others)

theorem Balanced.around {events : List Event} (between : Balanced events) (t : SyntaxNode) :
    Balanced (.enter t :: events ++ [.leave t]) := by
  have settled := between.settled
  refine ⟨fun seen part => ?_, ?_⟩
  · rw [List.cons_append, List.prefix_cons_iff] at part
    rcases part with rfl | ⟨rest, rfl, part⟩
    · exact Nat.le_refl 0
    · rw [List.prefix_concat_iff] at part
      rcases part with rfl | within
      · simp only [List.filterMap_cons, List.filterMap_append, List.filterMap_nil, left?, entered?,
          List.length_cons, List.length_append, List.length_nil]
        omega
      · have := between.held rest within
        simp only [List.filterMap_cons, left?, entered?, List.length_cons]
        omega
  · simp only [List.cons_append, List.filterMap_cons, List.filterMap_append, List.filterMap_nil,
      left?, entered?, List.length_cons, List.length_append, List.length_nil]
    omega

end Event

namespace Tree

def nodeAt? (t : SyntaxNode) : Address → Option SyntaxNode
  | [] => some t
  | i :: rest => t.visibleChildren[i]?.bind (nodeAt? · rest)

mutual

def visits : SyntaxNode → List Visit
  | .node _ cs => .enter [] :: visitsAll 0 cs ++ [.leave []]

def visitsAll (number : Nat) : List SyntaxNode → List Visit
  | [] => []
  | t :: rest =>
    if t.isVisible then t.visits.map (.below number) ++ visitsAll (number + 1) rest
    else visitsAll number rest

end

def addresses (t : SyntaxNode) : List Address :=
  t.visits.filterMap Visit.entered?

def event? (t : SyntaxNode) : Visit → Option Event
  | .enter a => (t.nodeAt? a).map .enter
  | .leave a => (t.nodeAt? a).map .leave

def visitsBelow (numbered : List (SyntaxNode × Nat)) : List Visit :=
  numbered.flatMap fun c => c.1.visits.map (.below c.2)

theorem visitsAll_eq (number : Nat) (ts : List SyntaxNode) :
    visitsAll number ts = visitsBelow ((ts.filter isVisible).zipIdx number) := by
  induction ts generalizing number with
  | nil => rfl
  | cons t rest ih =>
    rw [visitsAll]
    by_cases visible : t.isVisible
    · rw [if_pos visible, List.filter_cons_of_pos visible, List.zipIdx_cons, ih]
      rfl
    · rw [if_neg visible, List.filter_cons_of_neg visible, ih]

theorem visits_eq (t : SyntaxNode) :
    t.visits = .enter [] :: visitsBelow t.visibleChildren.zipIdx ++ [.leave []] := by
  cases t
  rw [visits, visitsAll_eq]
  rfl

section Children

variable {α β : Type}

theorem flatMap_eq_flatMap_zipIdx (items : List α) (f : α → List β) :
    items.flatMap f = items.zipIdx.flatMap fun c => f c.1 := by
  have back := congrArg (List.flatMap f) (List.zipIdx_map_fst 0 items)
  rw [List.flatMap_map] at back
  exact back.symm

theorem fst_mem_of_mem_zipIdx {items : List α} {c : α × Nat} (numbered : c ∈ items.zipIdx) :
    c.1 ∈ items :=
  List.mem_of_getElem? (List.mem_zipIdx_iff_getElem?.mp numbered)

theorem pairwise_zipIdx (items : List α) : items.zipIdx.Pairwise fun c d => c.2 < d.2 := by
  rw [← List.pairwise_map, List.zipIdx_map_snd]
  exact List.pairwise_lt_range'

theorem exists_part_of_flatMap_eq {items : List α} {f : α → List β} {before after : List β} {b : β}
    (split : items.flatMap f = before ++ b :: after) :
    ∃ first a later inner outer, items = first ++ a :: later ∧ f a = inner ++ b :: outer ∧
      before = first.flatMap f ++ inner := by
  induction items generalizing before with
  | nil => simp at split
  | cons a rest ih =>
    rw [List.flatMap_cons] at split
    rcases List.append_eq_append_iff.mp split with ⟨more, rfl, tail⟩ | ⟨more, here, tail⟩
    · obtain ⟨first, c, later, inner, outer, rfl, found, rfl⟩ := ih tail
      exact ⟨a :: first, c, later, inner, outer, rfl, found, by simp⟩
    · cases more with
      | nil =>
        rw [List.append_nil] at here
        have tail : rest.flatMap f = [] ++ b :: after := tail.symm
        obtain ⟨first, c, later, inner, outer, rfl, found, passed⟩ := ih tail
        refine ⟨a :: first, c, later, inner, outer, rfl, found, ?_⟩
        rw [← here, List.flatMap_cons, List.append_assoc, ← passed, List.append_nil]
      | cons x more =>
        obtain ⟨rfl, rfl⟩ := List.cons.inj tail
        exact ⟨[], a, rest, before, more, rfl, here, rfl⟩

end Children

section Numbering

variable {t c : SyntaxNode} {i : Nat}

theorem nodeAt?_of_child (child : (c, i) ∈ t.visibleChildren.zipIdx) (a : Address) :
    t.nodeAt? (i :: a) = c.nodeAt? a := by
  rw [nodeAt?, List.mk_mem_zipIdx_iff_getElem?.mp child, Option.bind_some]

theorem event?_below (child : (c, i) ∈ t.visibleChildren.zipIdx) (v : Visit) :
    t.event? (v.below i) = c.event? v := by
  cases v <;> simp only [event?, Visit.below, nodeAt?_of_child child]

theorem map_some_events (t : SyntaxNode) : t.events.map some = t.visits.map t.event? := by
  induction t using visibleInduction with
  | step t ih =>
    have below : (t.visibleChildren.flatMap events).map some =
        (visitsBelow t.visibleChildren.zipIdx).map t.event? := by
      rw [flatMap_eq_flatMap_zipIdx, visitsBelow, List.map_flatMap, List.map_flatMap]
      refine List.flatMap_congr fun c child => ?_
      rw [ih c.1 (fst_mem_of_mem_zipIdx child), List.map_map]
      exact List.map_congr_left fun v _ => (event?_below child v).symm
    rw [events_eq, visits_eq, List.map_append, List.map_append, List.map_cons, List.map_cons, below]
    rfl

theorem filterMap_entered?_events (t : SyntaxNode) : t.events.filterMap Event.entered? = t.walk := by
  induction t using visibleInduction with
  | step t ih =>
    have below : (t.visibleChildren.flatMap events).filterMap Event.entered? =
        t.visibleChildren.flatMap walk := by
      rw [List.filterMap_flatMap]
      exact List.flatMap_congr ih
    rw [events_eq, walk_eq, List.filterMap_append, List.filterMap_cons, below]
    exact List.append_nil _

theorem balanced_events (t : SyntaxNode) : Event.Balanced t.events := by
  induction t using visibleInduction with
  | step t ih =>
    rw [events_eq]
    exact (Event.Balanced.flatMap ih).around t

theorem filterMap_visitsBelow {f : Visit → Option Address}
    (shifts : ∀ i v, f (v.below i) = (f v).map (i :: ·)) (numbered : List (SyntaxNode × Nat)) :
    (visitsBelow numbered).filterMap f =
      numbered.flatMap fun c => (c.1.visits.filterMap f).map (c.2 :: ·) := by
  rw [visitsBelow, List.filterMap_flatMap]
  refine List.flatMap_congr fun c _ => ?_
  rw [List.filterMap_map, List.map_filterMap]
  exact List.filterMap_congr fun v _ => shifts c.2 v

theorem addresses_eq (t : SyntaxNode) :
    t.addresses = [] :: t.visibleChildren.zipIdx.flatMap fun c => c.1.addresses.map (c.2 :: ·) := by
  rw [addresses, visits_eq, List.filterMap_append, List.filterMap_cons,
    filterMap_visitsBelow Visit.entered?_below]
  exact List.append_nil _

theorem filterMap_left?_visits (t : SyntaxNode) : t.visits.filterMap Visit.left? ~ t.addresses := by
  induction t using visibleInduction with
  | step t ih =>
    rw [addresses_eq, visits_eq, List.filterMap_append, List.filterMap_cons,
      filterMap_visitsBelow Visit.left?_below]
    refine (List.perm_append_singleton _ _).trans (.cons _ (.flatMap_left _ fun c child => ?_))
    exact (ih c.1 (fst_mem_of_mem_zipIdx child)).map _

theorem map_some_walk (t : SyntaxNode) : t.walk.map some = t.addresses.map t.nodeAt? := by
  induction t using visibleInduction with
  | step t ih =>
    rw [walk_eq, addresses_eq, List.map_cons, List.map_cons, flatMap_eq_flatMap_zipIdx,
      List.map_flatMap, List.map_flatMap]
    refine congrArg (some t :: ·) (List.flatMap_congr fun c child => ?_)
    rw [ih c.1 (fst_mem_of_mem_zipIdx child), List.map_map]
    exact List.map_congr_left fun a _ => (nodeAt?_of_child child a).symm

theorem mem_addresses_iff (t : SyntaxNode) (a : Address) :
    a ∈ t.addresses ↔ (t.nodeAt? a).isSome = true := by
  induction a generalizing t with
  | nil =>
    rw [addresses_eq]
    simp [nodeAt?]
  | cons i rest ih =>
    have listed : i :: rest ∈ t.addresses ↔
        ∃ c, (c, i) ∈ t.visibleChildren.zipIdx ∧ rest ∈ c.addresses := by
      rw [addresses_eq]
      simp only [List.mem_cons, reduceCtorEq, false_or, List.mem_flatMap, List.mem_map,
        List.cons.injEq, Prod.exists]
      constructor
      · rintro ⟨c, j, child, b, within, rfl, rfl⟩
        exact ⟨c, child, within⟩
      · exact fun ⟨c, child, within⟩ => ⟨c, i, child, rest, within, rfl, rfl⟩
    rw [listed]
    simp only [ih, List.mk_mem_zipIdx_iff_getElem?, nodeAt?]
    cases t.visibleChildren[i]? <;> simp

/-- A node comes before what is below it, and what is below one child before the next child. -/
theorem pairwise_addresses (t : SyntaxNode) : t.addresses.Pairwise (· < ·) := by
  induction t using visibleInduction with
  | step t ih =>
    rw [addresses_eq, List.pairwise_cons, List.pairwise_flatMap]
    refine ⟨fun a within => ?_, fun c child => ?_, (pairwise_zipIdx _).imp fun {c d} earlier => ?_⟩
    · obtain ⟨c, -, listed⟩ := List.mem_flatMap.mp within
      obtain ⟨b, -, rfl⟩ := List.mem_map.mp listed
      exact List.nil_lt_cons _ _
    · refine List.pairwise_map.mpr ((ih c.1 (fst_mem_of_mem_zipIdx child)).imp fun less => ?_)
      exact List.cons_lt_cons_iff.mpr (.inr ⟨rfl, less⟩)
    · intro a first b second
      obtain ⟨_, -, rfl⟩ := List.mem_map.mp first
      obtain ⟨_, -, rfl⟩ := List.mem_map.mp second
      exact List.cons_lt_cons_iff.mpr (.inl earlier)

end Numbering

section Open

theorem enter_mem_visits {t : SyntaxNode} {a : Address} : .enter a ∈ t.visits ↔ a ∈ t.addresses := by
  rw [addresses, List.mem_filterMap]
  constructor
  · exact fun within => ⟨_, within, rfl⟩
  · rintro ⟨v | v, within, same⟩
    · exact Option.some.inj same ▸ within
    · cases same

theorem leave_mem_visits {t : SyntaxNode} {a : Address} : .leave a ∈ t.visits ↔ a ∈ t.addresses := by
  rw [← t.filterMap_left?_visits.mem_iff, List.mem_filterMap]
  constructor
  · exact fun within => ⟨_, within, rfl⟩
  · rintro ⟨v | v, within, same⟩
    · cases same
    · exact Option.some.inj same ▸ within

theorem below_mem_visitsBelow {numbered : List (SyntaxNode × Nat)} {i : Nat} {v : Visit} :
    v.below i ∈ visitsBelow numbered ↔ ∃ c, (c, i) ∈ numbered ∧ v ∈ c.visits := by
  simp only [visitsBelow, List.mem_flatMap, List.mem_map, Visit.below_eq_below_iff, Prod.exists]
  constructor
  · rintro ⟨c, j, child, w, within, rfl, rfl⟩
    exact ⟨c, child, within⟩
  · exact fun ⟨c, child, within⟩ => ⟨c, i, child, v, within, rfl, rfl⟩

theorem below_mem_map_below {visits : List Visit} {i j : Nat} {v : Visit} :
    v.below i ∈ visits.map (.below j) ↔ i = j ∧ v ∈ visits := by
  simp only [List.mem_map, Visit.below_eq_below_iff]
  constructor
  · rintro ⟨w, within, rfl, rfl⟩
    exact ⟨rfl, within⟩
  · rintro ⟨rfl, within⟩
    exact ⟨v, within, rfl, rfl⟩

/-- Children that are finished have nothing open, and the others are not entered. -/
theorem isOpen_cons_iff {first : List (SyntaxNode × Nat)} {j : Nat} {seen : List Visit}
    (earlier : ∀ c ∈ first, c.2 < j) (i : Nat) (a : Address) :
    Visit.IsOpen (i :: a) (visitsBelow first ++ seen.map (.below j)) ↔
      i = j ∧ Visit.IsOpen a seen := by
  have entered : .enter (i :: a) ∈ visitsBelow first ++ seen.map (.below j) ↔
      (∃ c, (c, i) ∈ first ∧ a ∈ c.addresses) ∨ i = j ∧ .enter a ∈ seen := by
    rw [List.mem_append, show Visit.enter (i :: a) = (Visit.enter a).below i from rfl,
      below_mem_visitsBelow, below_mem_map_below]
    simp only [enter_mem_visits]
  have left : .leave (i :: a) ∈ visitsBelow first ++ seen.map (.below j) ↔
      (∃ c, (c, i) ∈ first ∧ a ∈ c.addresses) ∨ i = j ∧ .leave a ∈ seen := by
    rw [List.mem_append, show Visit.leave (i :: a) = (Visit.leave a).below i from rfl,
      below_mem_visitsBelow, below_mem_map_below]
    simp only [leave_mem_visits]
  have other (c : SyntaxNode) (same : i = j) : (c, i) ∉ first := fun within =>
    absurd (earlier _ within) (by simp [same])
  rw [Visit.IsOpen, Visit.IsOpen, entered, left]
  by_cases same : i = j
  · simp [same ▸ other, same]
  · simp [same]

theorem leave_nil_not_mem_visitsBelow (numbered : List (SyntaxNode × Nat)) :
    .leave [] ∉ visitsBelow numbered := by
  intro within
  obtain ⟨c, -, listed⟩ := List.mem_flatMap.mp within
  obtain ⟨v | v, -, same⟩ := List.mem_map.mp listed <;> cases same

theorem exists_child_of_visitsBelow_eq {numbered : List (SyntaxNode × Nat)}
    {before after : List Visit} {v : Visit} (grows : numbered.Pairwise fun c d => c.2 < d.2)
    (split : visitsBelow numbered = before ++ v :: after) :
    ∃ c ∈ numbered, ∃ first seen w rest, (∀ d ∈ first, d.2 < c.2) ∧
      c.1.visits = seen ++ w :: rest ∧ v = w.below c.2 ∧
      before ++ [v] = visitsBelow first ++ (seen ++ [w]).map (.below c.2) := by
  obtain ⟨first, c, later, inner, outer, rfl, part, rfl⟩ := exists_part_of_flatMap_eq split
  obtain ⟨seen, others, visits, rfl, tail⟩ := List.map_eq_append_iff.mp part
  obtain ⟨w, rest, rfl, rfl, -⟩ := List.map_eq_cons_iff.mp tail
  refine ⟨c, by simp, first, seen, w, rest, fun d before => ?_, visits, rfl, ?_⟩
  · exact (List.pairwise_append.mp grows).2.2 d before c List.mem_cons_self
  · rw [List.map_append, ← List.append_assoc]
    rfl

theorem not_isOpen_visits (t : SyntaxNode) (a : Address) : ¬ Visit.IsOpen a t.visits :=
  fun ⟨entered, stays⟩ => stays (leave_mem_visits.mpr (enter_mem_visits.mp entered))

/-- After every visit the open nodes are those on the way to it. -/
theorem isOpen_iff_passes {t : SyntaxNode} {before after : List Visit} {v : Visit}
    (split : t.visits = before ++ v :: after) (a : Address) :
    Visit.IsOpen a (before ++ [v]) ↔ v.Passes a := by
  induction t using visibleInduction generalizing before after v a with
  | step t ih =>
    have whole := split
    rw [visits_eq] at split
    rcases before with - | ⟨head, before⟩
    · -- The node itself is entered.
      obtain ⟨rfl, -⟩ := List.cons.inj split
      simp [Visit.IsOpen, Visit.Passes]
    obtain ⟨rfl, tail⟩ := List.cons.inj split
    have tail : visitsBelow t.visibleChildren.zipIdx ++ [.leave []] = before ++ v :: after := tail
    rcases List.eq_nil_or_concat after with rfl | ⟨more, last, rfl⟩
    · -- The node itself is left, and everything is closed.
      obtain ⟨rfl, same⟩ := List.append_inj' tail rfl
      obtain ⟨rfl, -⟩ := List.cons.inj same
      rw [← whole, Visit.Passes, List.prefix_nil]
      exact iff_of_false (not_isOpen_visits t a) fun ⟨nil, other⟩ => other nil
    · -- The visit is below one of the children.
      rw [List.concat_eq_append, ← List.cons_append, ← List.append_assoc] at tail
      have inside := (List.append_inj' tail rfl).1
      have open_here : .leave [] ∉ before ++ [v] := by
        intro within
        refine leave_nil_not_mem_visitsBelow t.visibleChildren.zipIdx ?_
        rw [inside, ← List.singleton_append, ← List.append_assoc]
        exact List.mem_append_left _ within
      obtain ⟨c, child, first, seen, w, rest, earlier, visits, rfl, passed⟩ :=
        exists_child_of_visitsBelow_eq (pairwise_zipIdx _) inside
      rw [List.cons_append]
      cases a with
      | nil => simp [Visit.IsOpen, open_here, Visit.passes_nil_below]
      | cons i a =>
        have others : Visit.IsOpen (i :: a) (.enter [] :: (before ++ [w.below c.2])) ↔
            Visit.IsOpen (i :: a) (before ++ [w.below c.2]) := by simp [Visit.IsOpen]
        rw [others, passed, isOpen_cons_iff earlier, Visit.passes_cons_below,
          ih c.1 (fst_mem_of_mem_zipIdx child) visits]

end Open

/-- A walk meets a node and then what the walks of its visible children meet; so it meets the nodes at
all addresses, each address once and in lexicographic order. The events enter the nodes in this order
and leave each of them once, after what is below it. They never leave more nodes than they entered, and
after each of them the nodes that are entered and not left are those on the way from the start. -/
theorem traversals_visit (t : SyntaxNode) :
    (t.walk = t :: t.visibleChildren.flatMap walk ∧
      t.walk.map some = t.addresses.map t.nodeAt? ∧
      t.addresses.Pairwise (· < ·) ∧
      ∀ a, a ∈ t.addresses ↔ (t.nodeAt? a).isSome = true) ∧
    (t.events = .enter t :: t.visibleChildren.flatMap events ++ [.leave t] ∧
      t.events.filterMap Event.entered? = t.walk ∧
      ∀ n, ((t.events.take n).filterMap Event.left?).length ≤
        ((t.events.take n).filterMap Event.entered?).length) ∧
    t.events.map some = t.visits.map t.event? ∧
    t.visits.filterMap Visit.entered? = t.addresses ∧
    t.visits.filterMap Visit.left? ~ t.addresses ∧
    ∀ before v after, t.visits = before ++ v :: after →
      ∀ a, Visit.IsOpen a (before ++ [v]) ↔ v.Passes a :=
  ⟨⟨t.walk_eq, t.map_some_walk, t.pairwise_addresses, t.mem_addresses_iff⟩,
    ⟨t.events_eq, t.filterMap_entered?_events,
      fun n => t.balanced_events.held _ (List.take_prefix n _)⟩,
    t.map_some_events, rfl, t.filterMap_left?_visits, fun _ _ _ => isOpen_iff_passes⟩

/-- A call with a comment between its arguments, and a number after it. -/
def callTree : SyntaxNode :=
  let part (kind : String) (named : Bool) (below : List SyntaxNode) : SyntaxNode :=
    .node ⟨kind, none, some "", ⟨1, 0⟩, named, false, false, 0⟩ below
  part "program" true [
    part "call_expression" true [
      part "identifier" true [], part "comment" true [], part "arguments" true []],
    part ";" false [],
    part "number" true []]

/-- When the arguments are entered, the identifier and nothing else has been left. -/
theorem callTree_visits :
    callTree.visits =
      [.enter [], .enter [0], .enter [0, 0], .leave [0, 0]] ++ .enter [0, 1] ::
        [.leave [0, 1], .leave [0], .enter [1], .leave [1], .leave []] ∧
    ∀ a, Visit.IsOpen a [.enter [], .enter [0], .enter [0, 0], .leave [0, 0], .enter [0, 1]] ↔
      a <+: [0, 1] := by
  have visits : callTree.visits =
      [.enter [], .enter [0], .enter [0, 0], .leave [0, 0]] ++ .enter [0, 1] ::
        [.leave [0, 1], .leave [0], .enter [1], .leave [1], .leave []] := rfl
  exact ⟨visits, (traversals_visit callTree).2.2.2.2.2 _ _ _ visits⟩

end Tree

end RenderFlow
