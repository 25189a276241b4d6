import Mathlib.Data.List.Induction
import Mathlib.Data.List.Nodup
import RenderFlow.Graph.Basic

/-!
Changing one node of a list. Where at most one node satisfies the condition, the first one and the last
one are the same, and a change is a `map`: `updateLast_eq_map`.
-/
namespace RenderFlow.Graph

def nodeIds (nodes : List Node) : List String :=
  nodes.map (·.id)

@[simp] theorem nodeIds_append (left right : List Node) :
    nodeIds (left ++ right) = nodeIds left ++ nodeIds right :=
  List.map_append

theorem mem_nodeIds {nodes : List Node} {id : String} :
    id ∈ nodeIds nodes ↔ ∃ n ∈ nodes, n.id = id :=
  List.mem_map

theorem filter_key_eq {α : Type} {key : α → String} {items : List α}
    (distinct : (items.map key).Nodup) {item : α} (within : item ∈ items) :
    items.filter (key · == key item) = [item] := by
  induction items with
  | nil => cases within
  | cons first rest ih =>
    obtain ⟨fresh, others⟩ := List.nodup_cons.mp distinct
    rcases List.mem_cons.mp within with rfl | later
    · have none_later : rest.filter (key · == key item) = [] :=
        List.filter_eq_nil_iff.mpr fun other held same =>
          fresh (List.mem_map.mpr ⟨other, held, beq_iff_eq.mp same⟩)
      rw [List.filter_cons, if_pos (beq_self_eq_true _), none_later]
    · have apart : ¬ (key first == key item) := fun same =>
        fresh (List.mem_map.mpr ⟨item, later, (beq_iff_eq.mp same).symm⟩)
      rw [List.filter_cons, if_neg apart, ih others later]

theorem map_updateFirst {β : Type} {g : Node → β} {p : Node → Bool} {f : Node → Node}
    (kept : ∀ n, g (f n) = g n) (nodes : List Node) :
    (updateFirst p f nodes).map g = nodes.map g := by
  induction nodes with
  | nil => rfl
  | cons n rest ih => by_cases h : p n <;> simp [updateFirst, h, kept, ih]

theorem map_updateLast {β : Type} {g : Node → β} {p : Node → Bool} {f : Node → Node}
    (kept : ∀ n, g (f n) = g n) (nodes : List Node) :
    (updateLast p f nodes).map g = nodes.map g := by
  unfold updateLast
  rw [List.map_reverse, map_updateFirst kept, List.map_reverse, List.reverse_reverse]

theorem nodeIds_updateLast {p : Node → Bool} {f : Node → Node} (kept : ∀ n, (f n).id = n.id)
    (nodes : List Node) : nodeIds (updateLast p f nodes) = nodeIds nodes :=
  map_updateLast kept nodes

def AtMostOne (p : Node → Bool) (nodes : List Node) : Prop :=
  nodes.Pairwise fun a b => p a → p b → False

theorem AtMostOne.reverse {p : Node → Bool} {nodes : List Node} (single : AtMostOne p nodes) :
    AtMostOne p nodes.reverse := by
  unfold AtMostOne
  rw [List.pairwise_reverse]
  exact single.imp fun apart ha hb => apart hb ha

theorem atMostOne_of_distinct {nodes : List Node} (distinct : (nodeIds nodes).Nodup)
    {p : Node → Bool} (id : String) (named : ∀ n ∈ nodes, p n → n.id = id) : AtMostOne p nodes := by
  refine (List.pairwise_map.mp distinct).imp_of_mem ?_
  intro a b left right apart ha hb
  exact apart ((named a left ha).trans (named b right hb).symm)

theorem updateFirst_eq_map {p : Node → Bool} {f : Node → Node} {nodes : List Node}
    (single : AtMostOne p nodes) :
    updateFirst p f nodes = nodes.map fun n => if p n then f n else n := by
  induction nodes with
  | nil => rfl
  | cons n rest ih =>
    obtain ⟨alone, others⟩ := List.pairwise_cons.mp single
    by_cases h : p n
    · have untouched : rest.map (fun n => if p n then f n else n) = rest := by
        refine (List.map_congr_left ?_).trans rest.map_id
        intro m within
        exact if_neg fun hm => alone m within h hm
      simp [updateFirst, h, untouched]
    · simp [updateFirst, h, ih others]

theorem updateLast_eq_map {p : Node → Bool} {f : Node → Node} {nodes : List Node}
    (single : AtMostOne p nodes) :
    updateLast p f nodes = nodes.map fun n => if p n then f n else n := by
  unfold updateLast
  rw [updateFirst_eq_map single.reverse, List.map_reverse, List.reverse_reverse]

section Moves

variable {α : Type} {p : α → Node → Bool} {f : α → Node → Node}

/-- A node after those of some moves that concern it. -/
def afterMoves (p : α → Node → Bool) (f : α → Node → Node) (moves : List α) (n : Node) : Node :=
  moves.foldl (fun n a => if p a n then f a n else n) n

/-- Where no move concerns two nodes and none changes which nodes a move concerns, each node goes its
own way. -/
theorem foldl_updateLast_eq_map (kept : ∀ a b n, p a (f b n) = p a n) {nodes : List Node}
    (single : ∀ a, AtMostOne (p a) nodes) (moves : List α) :
    moves.foldl (fun nodes a => updateLast (p a) (f a) nodes) nodes =
      nodes.map (afterMoves p f moves) := by
  induction moves generalizing nodes with
  | nil => exact (List.map_id nodes).symm
  | cons a rest ih =>
    have same (b : α) (n : Node) : p b (if p a n then f a n else n) = p b n := by
      split
      · exact kept b a n
      · rfl
    -- A move takes no node into or out of the reach of another move.
    have single_map (b : α) : AtMostOne (p b) (nodes.map fun n => if p a n then f a n else n) := by
      refine List.pairwise_map.mpr ((single b).imp ?_)
      intro m n apart hm hn
      rw [same] at hm hn
      exact apart hm hn
    rw [List.foldl_cons, updateLast_eq_map (single a), ih single_map, List.map_map]
    rfl

theorem afterMoves_append (first second : List α) (n : Node) :
    afterMoves p f (first ++ second) n = afterMoves p f second (afterMoves p f first n) :=
  List.foldl_append

theorem afterMoves_invariant {β : Type} {g : Node → β} (kept : ∀ a n, g (f a n) = g n)
    (moves : List α) (n : Node) : g (afterMoves p f moves n) = g n := by
  induction moves generalizing n with
  | nil => rfl
  | cons a rest ih =>
    change g (afterMoves p f rest (if p a n then f a n else n)) = g n
    rw [ih]
    split
    · exact kept a n
    · rfl

theorem afterMoves_induction {P : Node → Prop} (kept : ∀ a n, P n → P (f a n)) (moves : List α)
    {n : Node} (holds : P n) : P (afterMoves p f moves n) := by
  induction moves generalizing n with
  | nil => exact holds
  | cons a rest ih =>
    refine ih (n := if p a n then f a n else n) ?_
    split
    · exact kept a n holds
    · exact holds

theorem afterMoves_of_none {moves : List α} {n : Node} (none : ∀ a ∈ moves, ¬ p a n) :
    afterMoves p f moves n = n := by
  induction moves with
  | nil => rfl
  | cons a rest ih =>
    obtain ⟨first, others⟩ := List.forall_mem_cons.mp none
    change afterMoves p f rest (if p a n then f a n else n) = n
    rw [if_neg first, ih others]

theorem afterMoves_of_mem (kept : ∀ a b n, p a (f b n) = p a n) {moves : List α} {n : Node}
    (concerned : ∃ a ∈ moves, p a n) :
    ∃ before a after, moves = before ++ a :: after ∧ p a n ∧
      afterMoves p f moves n = f a (afterMoves p f before n) := by
  -- From the end, since what comes after the last move that concerns the node leaves it alone.
  induction moves using List.reverseRecOn with
  | nil => simp at concerned
  | append_singleton moves last ih =>
    have step : afterMoves p f (moves ++ [last]) n =
        if p last n then f last (afterMoves p f moves n) else afterMoves p f moves n := by
      have same : p last (afterMoves p f moves n) = p last n :=
        afterMoves_invariant (fun a m => kept last a m) moves n
      rw [afterMoves_append, ← same]
      rfl
    by_cases here : p last n
    · exact ⟨moves, last, [], rfl, here, by rw [step, if_pos here]⟩
    · have earlier : ∃ a ∈ moves, p a n := by
        obtain ⟨a, within, concerns⟩ := concerned
        rcases List.mem_append.mp within with old | new
        · exact ⟨a, old, concerns⟩
        · rw [List.mem_singleton.mp new] at concerns
          exact absurd concerns here
      obtain ⟨before, a, after, split, concerns, last_eq⟩ := ih earlier
      exact ⟨before, a, after ++ [last], by simp [split], concerns, by rw [step, if_neg here, last_eq]⟩

theorem afterMoves_congr {moves : List α} {m n : Node} (same : ∀ a, p a m = p a n)
    (together : ∀ a, f a m = f a n) (concerned : ∃ a ∈ moves, p a n) :
    afterMoves p f moves m = afterMoves p f moves n := by
  induction moves with
  | nil => simp at concerned
  | cons a rest ih =>
    change afterMoves p f rest (if p a m then f a m else m) =
      afterMoves p f rest (if p a n then f a n else n)
    rw [same]
    by_cases first : p a n
    · rw [if_pos first, if_pos first, together]
    · rw [if_neg first, if_neg first]
      obtain ⟨b, within, concerns⟩ := concerned
      rcases List.mem_cons.mp within with rfl | later
      · exact absurd concerns first
      · exact ih ⟨b, later, concerns⟩

theorem afterMoves_idem (kept : ∀ a b n, p a (f b n) = p a n)
    (forgets : ∀ a b n, f a (f b n) = f a n) (moves : List α) (n : Node) :
    afterMoves p f moves (afterMoves p f moves n) = afterMoves p f moves n := by
  by_cases concerned : ∃ a ∈ moves, p a n
  · refine afterMoves_congr (fun a => ?_) (fun a => ?_) concerned
    · exact afterMoves_invariant (fun b m => kept a b m) moves n
    · exact afterMoves_invariant (fun b m => forgets a b m) moves n
  · have none : ∀ a ∈ moves, ¬ p a n := fun a within concerns => concerned ⟨a, within, concerns⟩
    rw [afterMoves_of_none none, afterMoves_of_none none]

end Moves

theorem exists_lastNode? {nodes : List Node} {id : String} (known : id ∈ nodeIds nodes) :
    ∃ n ∈ nodes, n.id = id ∧ lastNode? nodes id = some n := by
  obtain ⟨m, within, named⟩ := mem_nodeIds.mp known
  have some_found : (lastNode? nodes id).isSome :=
    List.find?_isSome.mpr ⟨m, List.mem_reverse.mpr within, by simp [named]⟩
  obtain ⟨n, found⟩ := Option.isSome_iff_exists.mp some_found
  refine ⟨n, List.mem_reverse.mp (List.mem_of_find?_eq_some found), ?_, found⟩
  simpa using List.find?_some found

end RenderFlow.Graph
