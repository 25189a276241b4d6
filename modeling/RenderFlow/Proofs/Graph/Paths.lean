import Mathlib.Data.List.Perm.Subperm
import RenderFlow.Graph.Packing
import RenderFlow.Proofs.Graph.Updates

/-!
Paths through the element tree, from an element up to its root. With distinct ids an element has one
path at most, and no path meets an element twice; elements on a cycle of links have none.
-/
namespace RenderFlow.Graph.Hierarchy

/-- What hangs from the first element of a path, and the roots where there is none. -/
def level (h : Hierarchy) : List String → List String
  | [] => h.roots
  | id :: _ => h.children id

inductive Path (h : Hierarchy) : List String → Prop
  | nil : Path h []
  | cons {up : List String} {id : String} : Path h up → id ∈ h.level up → Path h (id :: up)

/-- Every id is a root, or hangs from one other id, or neither. -/
structure IsForest (h : Hierarchy) (ids : List String) : Prop where
  distinct : ∀ up, (h.level up).Nodup
  known : ∀ up, h.level up ⊆ ids
  single : ∀ {id p q}, id ∈ h.children p → id ∈ h.children q → p = q
  apart : ∀ {id p}, id ∈ h.children p → id ∉ h.roots

variable {h : Hierarchy} {ids up : List String} {id : String}

theorem Path.suffix {path : List String} (leads : h.Path path) (part : up <:+ path) :
    h.Path up := by
  induction leads with
  | nil => rw [List.suffix_nil.mp part]; exact .nil
  | cons before held ih =>
    rcases List.suffix_cons_iff.mp part with rfl | shorter
    · exact .cons before held
    · exact ih shorter

theorem Path.mem_level (leads : h.Path (id :: up)) : id ∈ h.level up := by
  cases leads with
  | cons _ held => exact held

theorem IsForest.path_unique (forest : h.IsForest ids) {other : List String}
    (left : h.Path (id :: up)) (right : h.Path (id :: other)) : up = other := by
  induction up generalizing id other with
  | nil =>
    cases other with
    | nil => rfl
    | cons q _ => exact absurd left.mem_level (forest.apart right.mem_level)
  | cons p rest ih =>
    cases other with
    | nil => exact absurd right.mem_level (forest.apart left.mem_level)
    | cons q others =>
      have same : p = q := forest.single left.mem_level right.mem_level
      subst same
      have above := ih (left.suffix (List.suffix_cons id _)) (right.suffix (List.suffix_cons id _))
      rw [above]

theorem IsForest.path_nodup (forest : h.IsForest ids) {path : List String}
    (leads : h.Path path) : path.Nodup := by
  induction leads with
  | nil => exact List.nodup_nil
  | @cons up id before held ih =>
    refine List.nodup_cons.mpr ⟨?_, ih⟩
    intro again
    -- The second occurrence would have a shorter path than the first.
    obtain ⟨front, back, split⟩ := List.append_of_mem again
    have shorter : h.Path (id :: back) := before.suffix ⟨front, split.symm⟩
    have same := forest.path_unique (.cons before held) shorter
    have lengths := congrArg List.length split
    rw [same] at lengths
    simp at lengths
    omega

theorem IsForest.path_subset (forest : h.IsForest ids) {path : List String}
    (leads : h.Path path) : path ⊆ ids := by
  induction leads with
  | nil => exact List.nil_subset ids
  | cons before held ih => exact List.cons_subset.mpr ⟨forest.known _ held, ih⟩

theorem IsForest.path_length (forest : h.IsForest ids) {path : List String}
    (leads : h.Path path) : path.length ≤ ids.length :=
  (List.subperm_of_subset (forest.path_nodup leads) (forest.path_subset leads)).length_le

def Under (h : Hierarchy) (up : List String) (id : String) : Prop :=
  ∃ path, h.Path (id :: path) ∧ up <:+ id :: path

theorem Under.self (leads : h.Path (id :: up)) : h.Under (id :: up) id :=
  ⟨up, leads, List.suffix_rfl⟩

theorem Under.tail {above : String} (under : h.Under (above :: up) id) : h.Under up id := by
  obtain ⟨path, leads, part⟩ := under
  exact ⟨path, leads, (List.suffix_cons above up).trans part⟩

/-- Below one path the element next to it is told by any element further down. -/
theorem IsForest.under_unique (forest : h.IsForest ids) {a b : String}
    (left : h.Under (a :: up) id) (right : h.Under (b :: up) id) : a = b := by
  obtain ⟨path, leads, first⟩ := left
  obtain ⟨other, leads', second⟩ := right
  rw [forest.path_unique leads' leads] at second
  have same := List.suffix_of_suffix_length_le first second (by simp)
  exact (List.cons.inj (same.eq_of_length (by simp))).1

theorem IsForest.not_under_self (forest : h.IsForest ids) (leads : h.Path (id :: up)) {a : String} :
    ¬ h.Under (a :: id :: up) id := by
  rintro ⟨path, leads', part⟩
  have lengths := part.length_le
  rw [forest.path_unique leads' leads] at lengths
  simp only [List.length_cons] at lengths
  omega

theorem Under.cases {above : String} (under : h.Under (above :: up) id) :
    id = above ∨ ∃ child ∈ h.children above, h.Under (child :: above :: up) id := by
  obtain ⟨path, leads, front, split⟩ := under
  rcases List.eq_nil_or_concat front with rfl | ⟨more, child, rfl⟩
  · exact .inl (List.cons.inj split).1.symm
  · right
    have part : child :: above :: up <:+ id :: path := ⟨more, by simpa using split⟩
    exact ⟨child, (leads.suffix part).mem_level, path, leads, part⟩

theorem Path.under_root (leads : h.Path (id :: up)) : ∃ root ∈ h.roots, h.Under [root] id := by
  have ends : [(id :: up).getLast (by simp)] <:+ id :: up :=
    ⟨(id :: up).dropLast, List.dropLast_append_getLast _⟩
  exact ⟨_, (leads.suffix ends).mem_level, up, leads, ends⟩

section Elements

variable {elements : List Node}

theorem children_ofElements (p : String) :
    (ofElements elements).children p =
      nodeIds (elements.filter fun n => parent? elements n == some p) := by
  simp only [ofElements, nodeIds, List.filter_map, List.map_map]
  rfl

theorem roots_ofElements :
    (ofElements elements).roots = nodeIds (elements.filter fun n => (parent? elements n).isNone) := by
  simp only [ofElements, nodeIds, List.filter_map, List.map_map]
  rfl

theorem mem_children {p : String} : id ∈ (ofElements elements).children p ↔
    ∃ n ∈ elements, n.id = id ∧ parent? elements n = some p := by
  simp only [children_ofElements, mem_nodeIds, List.mem_filter, beq_iff_eq]
  constructor
  · rintro ⟨n, ⟨held, hangs⟩, named⟩
    exact ⟨n, held, named, hangs⟩
  · rintro ⟨n, held, named, hangs⟩
    exact ⟨n, ⟨held, hangs⟩, named⟩

theorem mem_roots : id ∈ (ofElements elements).roots ↔
    ∃ n ∈ elements, n.id = id ∧ parent? elements n = none := by
  simp only [roots_ofElements, mem_nodeIds, List.mem_filter, Option.isNone_iff_eq_none]
  constructor
  · rintro ⟨n, ⟨held, top⟩, named⟩
    exact ⟨n, held, named, top⟩
  · rintro ⟨n, held, named, top⟩
    exact ⟨n, ⟨held, top⟩, named⟩

theorem level_sublist (up : List String) :
    ((ofElements elements).level up).Sublist (nodeIds elements) := by
  cases up with
  | nil =>
    rw [level, roots_ofElements]
    exact List.filter_sublist.map _
  | cons p _ =>
    rw [level, children_ofElements]
    exact List.filter_sublist.map _

/-- Distinct ids put every element into one list of siblings. -/
theorem isForest_ofElements (distinct : (nodeIds elements).Nodup) :
    (ofElements elements).IsForest (nodeIds elements) where
  distinct up := distinct.sublist (level_sublist up)
  known up := (level_sublist up).subset
  single {id p q} left right := by
    obtain ⟨n, held, named, hangs⟩ := mem_children.mp left
    obtain ⟨m, held', named', hangs'⟩ := mem_children.mp right
    have same : n = m := List.inj_on_of_nodup_map distinct held held' (named.trans named'.symm)
    rw [← same, hangs] at hangs'
    exact Option.some.inj hangs'
  apart {id p} below top := by
    obtain ⟨n, held, named, hangs⟩ := mem_children.mp below
    obtain ⟨m, held', named', alone⟩ := mem_roots.mp top
    have same : n = m := List.inj_on_of_nodup_map distinct held held' (named.trans named'.symm)
    rw [same, alone] at hangs
    cases hangs

theorem exists_path {depth : String → Nat}
    (deeper : ∀ id, ∀ child ∈ (ofElements elements).children id, depth id < depth child)
    {n : Node} (held : n ∈ elements) : ∃ up, (ofElements elements).Path (n.id :: up) := by
  induction size : depth n.id using Nat.strongRecOn generalizing n with
  | _ size ih =>
    cases hangs : parent? elements n with
    | none => exact ⟨[], .cons .nil (mem_roots.mpr ⟨n, held, rfl, hangs⟩)⟩
    | some p =>
      have below : n.id ∈ (ofElements elements).children p := mem_children.mpr ⟨n, held, rfl, hangs⟩
      obtain ⟨-, known⟩ := Option.filter_eq_some_iff.mp hangs
      rw [Bool.and_eq_true, List.any_eq_true] at known
      obtain ⟨⟨m, held', named⟩, -⟩ := known
      rw [beq_iff_eq] at named
      subst named
      have higher := deeper m.id n.id below
      obtain ⟨up, leads⟩ := ih (depth m.id) (by omega) held' rfl
      exact ⟨m.id :: up, .cons leads below⟩

end Elements

end RenderFlow.Graph.Hierarchy
