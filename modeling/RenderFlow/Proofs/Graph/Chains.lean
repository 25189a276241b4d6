import Mathlib.Data.Fintype.Card
import Mathlib.Data.Set.Finite.List
import RenderFlow.Proofs.Graph.Attempts
import RenderFlow.Proofs.Graph.Packed

/-!
Chains of parents. Going up from an element ends at a root or goes round a cycle of links, and packing
places just the elements whose chain ends, whatever the parents say and wherever a fault stops it. Main
statement: `Layout.pack_ends`.
-/
namespace RenderFlow.Graph

namespace Hierarchy

variable {elements : List Node} {id : String}

def HangsFrom (elements : List Node) (child parent : String) : Prop :=
  ∃ n ∈ elements, n.id = child ∧ parent? elements n = some parent

instance (elements : List Node) (child parent : String) :
    Decidable (HangsFrom elements child parent) :=
  inferInstanceAs (Decidable (∃ n ∈ elements, n.id = child ∧ parent? elements n = some parent))

/-- Going up from an element ends at a root. -/
def ReachesRoot (elements : List Node) (id : String) : Prop :=
  ∃ root ∈ (ofElements elements).roots, Relation.ReflTransGen (HangsFrom elements) id root

/-- An element is on a cycle of links or below one. -/
def MeetsCycle (elements : List Node) (id : String) : Prop :=
  ∃ again, Relation.ReflTransGen (HangsFrom elements) id again ∧
    Relation.TransGen (HangsFrom elements) again again

theorem known_of_hangsFrom {child parent : String} (hangs : HangsFrom elements child parent) :
    parent ∈ nodeIds elements := by
  obtain ⟨n, -, -, link⟩ := hangs
  obtain ⟨-, known⟩ := Option.filter_eq_some_iff.mp link
  rw [Bool.and_eq_true, List.any_eq_true] at known
  obtain ⟨⟨m, held, named⟩, -⟩ := known
  exact mem_nodeIds.mpr ⟨m, held, beq_iff_eq.mp named⟩

theorem root_or_hangsFrom (known : id ∈ nodeIds elements) :
    id ∈ (ofElements elements).roots ∨ ∃ parent, HangsFrom elements id parent := by
  obtain ⟨n, held, named⟩ := mem_nodeIds.mp known
  cases link : parent? elements n with
  | none => exact .inl (mem_roots.mpr ⟨n, held, named, link⟩)
  | some parent => exact .inr ⟨parent, n, held, named, link⟩

theorem exists_path_of_reachesRoot (reaches : ReachesRoot elements id) :
    ∃ up, (ofElements elements).Path (id :: up) := by
  obtain ⟨root, top, chain⟩ := reaches
  induction chain using Relation.ReflTransGen.head_induction_on with
  | refl => exact ⟨[], .cons .nil top⟩
  | head hangs _ ih =>
    obtain ⟨up, leads⟩ := ih
    exact ⟨_, .cons leads (mem_children.mpr hangs)⟩

theorem exists_path_of_transGen (forest : (ofElements elements).IsForest (nodeIds elements))
    {above : String} {up : List String} (leads : (ofElements elements).Path (id :: up))
    (chain : Relation.TransGen (HangsFrom elements) id above) :
    ∃ rest, (ofElements elements).Path (above :: rest) ∧ rest.length < up.length := by
  have parent {child parent : String} {up : List String} (hangs : HangsFrom elements child parent)
      (leads : (ofElements elements).Path (child :: up)) : ∃ rest, up = parent :: rest := by
    have below := mem_children.mpr hangs
    cases up with
    | nil => exact absurd leads.mem_level (forest.apart below)
    | cons p rest => exact ⟨rest, by rw [forest.single leads.mem_level below]⟩
  have tail {child : String} {up : List String} (leads : (ofElements elements).Path (child :: up)) :
      (ofElements elements).Path up :=
    leads.suffix (List.suffix_cons child up)
  induction chain with
  | single hangs =>
    obtain ⟨rest, rfl⟩ := parent hangs leads
    exact ⟨rest, tail leads, Nat.lt_succ_self _⟩
  | tail _ hangs ih =>
    obtain ⟨rest, leads', shorter⟩ := ih
    obtain ⟨rest', rfl⟩ := parent hangs leads'
    refine ⟨rest', tail leads', ?_⟩
    rw [List.length_cons] at shorter
    omega

theorem not_meetsCycle_of_path (forest : (ofElements elements).IsForest (nodeIds elements))
    {up : List String} (leads : (ofElements elements).Path (id :: up)) :
    ¬ MeetsCycle elements id := by
  rintro ⟨again, chain, round⟩
  have reached : ∃ rest, (ofElements elements).Path (again :: rest) := by
    rcases Relation.reflTransGen_iff_eq_or_transGen.mp chain with rfl | above
    · exact ⟨up, leads⟩
    · obtain ⟨rest, leads', -⟩ := exists_path_of_transGen forest leads above
      exact ⟨rest, leads'⟩
  obtain ⟨rest, before⟩ := reached
  obtain ⟨rest', after, shorter⟩ := exists_path_of_transGen forest before round
  rw [forest.path_unique after before] at shorter
  exact Nat.lt_irrefl _ shorter

abbrev Above (elements : List Node) (id : String) : Type :=
  {other : String // other ∈ nodeIds elements ∧ Relation.ReflTransGen (HangsFrom elements) id other}

def IsHigher (elements : List Node) (id : String) (a b : Above elements id) : Prop :=
  Relation.TransGen (HangsFrom elements) b.1 a.1

/-- There are finitely many elements, so without a cycle there is no endless way up. -/
theorem wellFounded_isHigher (acyclic : ¬ MeetsCycle elements id) :
    WellFounded (IsHigher elements id) := by
  have finite : Finite (Above elements id) := by
    have known : {other | other ∈ nodeIds elements}.Finite := List.finite_toSet _
    exact known.subset fun other above => above.1
  have transitive : IsTrans (Above elements id) (IsHigher elements id) :=
    ⟨fun a b c first second => second.trans first⟩
  have irreflexive : Std.Irrefl (IsHigher elements id) :=
    ⟨fun a round => acyclic ⟨a.1, a.2.2, round⟩⟩
  exact Finite.wellFounded_of_trans_of_irrefl (IsHigher elements id)

theorem reachesRoot_or_meetsCycle (known : id ∈ nodeIds elements) :
    ReachesRoot elements id ∨ MeetsCycle elements id := by
  by_cases cyclic : MeetsCycle elements id
  · exact .inr cyclic
  left
  have reaches (a : Above elements id) : ReachesRoot elements a.1 := by
    induction a using (wellFounded_isHigher cyclic).induction with
    | _ a ih =>
      rcases root_or_hangsFrom a.2.1 with top | ⟨parent, hangs⟩
      · exact ⟨a.1, top, .refl⟩
      · obtain ⟨root, top, chain⟩ := ih ⟨parent, known_of_hangsFrom hangs, a.2.2.tail hangs⟩
          (.single hangs)
        exact ⟨root, top, chain.head hangs⟩
  exact reaches ⟨id, known, .refl⟩

end Hierarchy

/-- Packing can read what an element says of its parent and its depth. -/
structure Node.IsPackable (n : Node) : Prop where
  parent : n.infoFault? "parent_id" = none
  depth : n.depthFault? = none

namespace Attempt

theorem exists_leaves_each {α : Type} (fault? : α → Option Fault) (step : Layout → α → Layout)
    (items : List α) (l : Layout) :
    ∃ done, done <+: items ∧ (each fault? step items).leaves l = done.foldl step l ∧
      ((∀ a ∈ items, fault? a = none) → done = items) := by
  induction items generalizing l with
  | nil => exact ⟨[], List.prefix_rfl, rfl, fun _ => rfl⟩
  | cons a rest ih =>
    cases found : fault? a with
    | some fault =>
      refine ⟨[], List.nil_prefix, by rw [each, found]; rfl, fun sound => ?_⟩
      rw [sound a List.mem_cons_self] at found
      cases found
    | none =>
      obtain ⟨done, part, left, whole⟩ := ih (step l a)
      refine ⟨a :: done, List.cons_prefix_cons.mpr ⟨rfl, part⟩, ?_, fun sound => ?_⟩
      · rw [each, found]
        exact left
      · rw [whole fun b within => sound b (List.mem_cons_of_mem a within)]

theorem nodes_leaves_andThen {first second : Attempt}
    (kept : ∀ nodes, second.Keeps fun l => l.nodes = nodes) (l : Layout) :
    (leaves (do first; second) l).nodes = (first.leaves l).nodes := by
  have after (m : Layout) : (second.leaves m).nodes = m.nodes := kept _ m rfl
  unfold leaves at after ⊢
  rw [EStateM.run_bind]
  cases first.run l with
  | ok _ m => exact after m
  | error _ m => rfl

theorem keeps_nodes_redraw (nodes : List Node) :
    Keeps (fun l => l.nodes = nodes) (do refresh; fit) := by
  have draw : refresh.Keeps fun l => l.nodes = nodes := by
    intro l holds
    rw [refresh, leaves_get]
    exact keeps_refuse (P := fun m => m.nodes = nodes) _ { l with edges := _ } holds
  have grow := keeps_growForEach (P := fun l => l.nodes = nodes) (fun _ _ same => same)
    fun _ _ same => same
  exact draw.andThen fun l holds => grow l.nodes l holds

theorem placeFault?_eq_none {elements : List Node} (packable : ∀ n ∈ elements, n.IsPackable)
    (place : String × Nat) : placeFault? elements place = none := by
  rw [placeFault?, Option.bind_eq_none_iff]
  intro n found
  exact (packable n (List.mem_reverse.mp (List.mem_of_find?_eq_some found))).depth

/-- Packing places a first part of what it means to place, and all of it where nothing is at fault. -/
theorem exists_nodes_leaves_pack (l : Layout) :
    ∃ done, done <+: l.places ∧
      (pack.leaves l).nodes = done.foldl (Layout.placeElement l.columns.elements) l.nodes ∧
      ((∀ n ∈ l.elements, n.IsPackable) → done = l.places) := by
  have elements : l.nodes.filter Node.isElement = l.elements := rfl
  rw [pack, leaves_get]
  dsimp only
  rw [elements]
  split
  · rename_i empty
    refine ⟨[], List.nil_prefix, rfl, fun _ => ?_⟩
    rw [Layout.places, List.isEmpty_iff.mp empty]
    rfl
  cases parents : l.elements.findSome? (·.infoFault? "parent_id") with
  | some fault =>
    refine ⟨[], List.nil_prefix, rfl, fun packable => ?_⟩
    obtain ⟨n, held, found⟩ := List.exists_of_findSome?_eq_some parents
    rw [(packable n held).parent] at found
    cases found
  | none =>
    cases rows : Hierarchy.rows? l.elements with
    | none =>
      refine ⟨[], List.nil_prefix, rfl, fun _ => ?_⟩
      rw [Layout.places, rows]
      rfl
    | some places =>
      obtain ⟨done, part, left, whole⟩ :=
        exists_leaves_each (placeFault? l.elements) placeNext places l
      have found : l.places = places := by
        rw [Layout.places, rows]
        rfl
      refine ⟨done, found ▸ part, ?_, fun packable => ?_⟩
      · refine (nodes_leaves_andThen keeps_nodes_redraw l).trans ?_
        rw [left, foldl_placeNext]
      · rw [found]
        exact whole fun place _ => placeFault?_eq_none packable place

end Attempt

namespace Layout

open Hierarchy

variable {l : Layout}

theorem exists_fills_places (distinct : (nodeIds l.elements).Nodup) :
    ∃ next, (ofElements l.elements).Fills (ofElements l.elements).roots 0 l.places next := by
  obtain ⟨places, next, rows, fills⟩ := exists_rows? distinct
  refine ⟨next, ?_⟩
  rwa [Layout.places, rows]

theorem packRoots_eq_places (distinct : (nodeIds l.elements).Nodup) {steps : Nat}
    (enough : 2 * l.elements.length < steps) :
    packRoots (ofElements l.elements) steps 0 (ofElements l.elements).roots = some l.places := by
  obtain ⟨next, fills⟩ := exists_fills_places distinct
  have short := fills.length_le (isForest_ofElements distinct)
  rw [nodeIds, List.length_map] at short
  exact fills.packRoots_eq (by omega)

theorem nodup_places (distinct : (nodeIds l.elements).Nodup) : (placedIds l.places).Nodup := by
  obtain ⟨next, fills⟩ := exists_fills_places distinct
  have forest := isForest_ofElements distinct
  exact fills.nodup forest .nil (List.Subset.refl _) (forest.distinct [])

theorem mem_placedIds (distinct : (nodeIds l.elements).Nodup) {id : String} :
    id ∈ placedIds l.places ↔ ∃ up, (ofElements l.elements).Path (id :: up) := by
  obtain ⟨next, fills⟩ := exists_fills_places distinct
  constructor
  · intro placed
    obtain ⟨root, -, up, leads, -⟩ := fills.under .nil (List.Subset.refl _) id placed
    exact ⟨up, leads⟩
  · rintro ⟨up, leads⟩
    obtain ⟨root, top, under⟩ := leads.under_root
    exact fills.complete top under

theorem placed_of_reachesRoot (distinct : (nodeIds l.elements).Nodup) {id : String}
    (reaches : ReachesRoot l.elements id) : id ∈ placedIds l.places :=
  (mem_placedIds distinct).mpr (exists_path_of_reachesRoot reaches)

theorem unplaced_of_meetsCycle (distinct : (nodeIds l.elements).Nodup) {id : String}
    (cyclic : MeetsCycle l.elements id) : id ∉ placedIds l.places := by
  intro placed
  obtain ⟨up, leads⟩ := (mem_placedIds distinct).mp placed
  exact not_meetsCycle_of_path (isForest_ofElements distinct) leads cyclic

theorem nodes_leaves_pack (distinct : (nodeIds l.elements).Nodup) :
    ∃ done, done <+: l.places ∧
      (Attempt.pack.leaves l).nodes = l.nodes.map (Node.packed l.columns.elements done) ∧
      ((∀ n ∈ l.elements, n.IsPackable) → done = l.places) := by
  obtain ⟨done, part, nodes, whole⟩ := Attempt.exists_nodes_leaves_pack l
  exact ⟨done, part, by rw [nodes, foldl_placeElement_eq distinct], whole⟩

/-- With distinct ids packing comes to an end, however the elements are linked. It places every element
whose chain of parents ends at a root once, and neither an element on or below a cycle of links nor any
other node is changed. -/
theorem pack_ends (distinct : (nodeIds l.elements).Nodup) :
    (∀ steps, 2 * l.elements.length < steps →
      packRoots (ofElements l.elements) steps 0 (ofElements l.elements).roots = some l.places) ∧
    (∀ n ∈ l.elements,
      (ReachesRoot l.elements n.id → (placedIds l.places).count n.id = 1) ∧
      (MeetsCycle l.elements n.id → (placedIds l.places).count n.id = 0) ∧
      (ReachesRoot l.elements n.id ∨ MeetsCycle l.elements n.id)) ∧
    List.Forall₂
      (fun before after =>
        (before.isElement → ReachesRoot l.elements before.id →
          (∀ n ∈ l.elements, n.IsPackable) →
          ∃ row, (before.id, row) ∈ l.places ∧ after = before.atRow l.columns.elements row) ∧
        ((before.isElement → MeetsCycle l.elements before.id) → after = before))
      l.nodes (Attempt.pack.leaves l).nodes := by
  have nodup := nodup_places distinct
  refine ⟨fun steps => packRoots_eq_places distinct, ?_, ?_⟩
  · intro n held
    refine ⟨?_, ?_, reachesRoot_or_meetsCycle (List.mem_map_of_mem held)⟩
    · intro reaches
      exact List.count_eq_one_of_mem nodup (placed_of_reachesRoot distinct reaches)
    · intro cyclic
      exact List.count_eq_zero_of_not_mem (unplaced_of_meetsCycle distinct cyclic)
  · obtain ⟨done, part, nodes, whole⟩ := nodes_leaves_pack distinct
    rw [nodes, List.forall₂_map_right_iff, List.forall₂_same]
    intro n _
    constructor
    · intro element reaches packable
      rw [whole packable]
      exact Node.packed_of_mem _ nodup element (placed_of_reachesRoot distinct reaches)
    · intro cyclic
      by_cases element : n.isElement
      · apply Node.packed_of_not_mem
        intro placed
        exact unplaced_of_meetsCycle distinct (cyclic element) ((part.sublist.map _).subset placed)
      · exact Node.packed_of_not_isElement element

/-- A child before its parent, two elements that are each other's parent, and one more below them. -/
def tangled : Layout where
  nodes := [
    elementNode .standard 0 ⟨"jsx-1", "li", 1, some "jsx-2", [], [], none⟩,
    elementNode .standard 1 ⟨"jsx-2", "ul", 0, some "jsx-2", [], [], none⟩,
    elementNode .standard 2 ⟨"jsx-3", "p", 1, some "jsx-4", [], [], none⟩,
    elementNode .standard 3 ⟨"jsx-4", "p", 1, some "jsx-3", [], [], none⟩,
    elementNode .standard 4 ⟨"jsx-5", "b", 2, some "jsx-4", [], [], none⟩]
  edges := []
  width := 1160
  height := 800
  columns := .standard

theorem pack_tangled_ends :
    (nodeIds tangled.elements).Nodup ∧
      ReachesRoot tangled.elements "jsx-jsx-1" ∧
      (placedIds tangled.places).count "jsx-jsx-1" = 1 ∧
      MeetsCycle tangled.elements "jsx-jsx-5" ∧
      (placedIds tangled.places).count "jsx-jsx-5" = 0 := by
  have distinct : (nodeIds tangled.elements).Nodup := by decide
  have reaches : ReachesRoot tangled.elements "jsx-jsx-1" :=
    ⟨"jsx-jsx-2", by decide, .single (by decide)⟩
  have round : HangsFrom tangled.elements "jsx-jsx-4" "jsx-jsx-3" := by decide
  have cyclic : MeetsCycle tangled.elements "jsx-jsx-5" :=
    ⟨"jsx-jsx-4", .single (by decide), .tail (.single round) (by decide)⟩
  obtain ⟨-, counts, -⟩ := pack_ends distinct
  have child := (counts tangled.elements[0] List.mem_cons_self).1 reaches
  have below := (counts tangled.elements[4] (List.getElem_mem _)).2.1 cyclic
  exact ⟨distinct, reaches, child, cyclic, below⟩

end Layout

end RenderFlow.Graph
