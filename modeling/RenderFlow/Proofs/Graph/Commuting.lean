import RenderFlow.Graph.Attempt
import RenderFlow.Proofs.Graph.Extent
import RenderFlow.Proofs.Graph.Linking

/-!
The two refiners beside each other. Each moves nodes that the other one leaves alone and neither sees
what the other one did, so their order does not show, and where both have been nothing is left to do.
Main statement: `Layout.refiners_commute`.
-/
namespace RenderFlow.Graph

open Hierarchy

/-- A change to nodes that leaves everything that is looked up as it was. -/
structure Node.IsMove (g : Node → Node) : Prop where
  id : ∀ n, (g n).id = n.id
  kind : ∀ n, (g n).kind = n.kind
  info : ∀ n key, key ≠ "row" → key ≠ "slot" → (g n).info.get? key = n.info.get? key
  unwritten : ∀ n, n.written = none → (g n).written = none

namespace Node

variable {g : Node → Node} {base left right : Binary64} {places : Places} {slots : List Slot}

theorem isMove_packed : IsMove (packed base places) where
  id _ := id_packed
  kind _ := kind_packed
  info _ _ row _ := get?_packed row
  unwritten _ := afterMoves_induction (p := isMeant) (P := (·.written = none)) (fun _ _ _ => rfl) places

theorem isMove_slotted : IsMove (slotted left right slots) where
  id _ := id_slotted
  kind _ := kind_slotted
  info _ _ _ slot := get?_slotted slot
  unwritten _ := afterMoves_induction (p := isFor) (P := (·.written = none)) (fun _ _ _ => rfl) slots

theorem packed_slotted (n : Node) : (n.slotted left right slots).packed base places =
    (n.packed base places).slotted left right slots := by
  by_cases element : n.isElement
  · have other : n.kind ≠ .state := by
      rw [beq_iff_eq.mp element]
      decide
    have still : (n.packed base places).kind ≠ .state := by rwa [kind_packed]
    rw [slotted_of_kind other, slotted_of_kind still]
  · have still : ¬ (n.slotted left right slots).isElement := by
      rwa [isElement, kind_slotted]
    rw [packed_of_not_isElement element, packed_of_not_isElement still]

namespace IsMove

theorem isElement (move : IsMove g) (n : Node) : (g n).isElement = n.isElement := by
  rw [Node.isElement, move.kind, Node.isElement]

theorem holds (move : IsMove g) (n : Node) (hook : String) :
    (g n).holdsHook hook = n.holdsHook hook := by
  rw [holdsHook, infoText?, move.kind, move.info n _ (by decide) (by decide), holdsHook, infoText?]

theorem parent (move : IsMove g) (n : Node) :
    (g n).infoText? "parent_id" = n.infoText? "parent_id" := by
  rw [infoText?, move.info n _ (by decide) (by decide), infoText?]

end IsMove

end Node

theorem Hierarchy.rows?_map {g : Node → Node} (move : Node.IsMove g) (elements : List Node) :
    rows? (elements.map g) = rows? elements := by
  have parents (n : Node) : parent? (elements.map g) (g n) = parent? elements n := by
    simp only [parent?, move.parent, move.id, List.any_map, Function.comp_def]
  have same : ofElements (elements.map g) = ofElements elements := by
    simp only [ofElements, List.map_map, Function.comp_def, move.id, parents]
  rw [rows?, rows?, same, stepBound, stepBound, List.length_map]

structure Node.IsSound (n : Node) : Prop where
  unwritten : n.written = none
  depth : n.isElement → n.depthFault? = none
  parent : n.isElement → n.infoFault? "parent_id" = none
  hook : n.kind = .state → n.infoFault? "hook_id" = none

theorem Node.IsSound.move {g : Node → Node} (move : IsMove g) {n : Node} (sound : n.IsSound) :
    (g n).IsSound where
  unwritten := move.unwritten n sound.unwritten
  depth element := by
    rw [depthFault?, move.info n _ (by decide) (by decide)]
    exact sound.depth (move.isElement n ▸ element)
  parent element := by
    rw [infoFault?, move.info n _ (by decide) (by decide)]
    exact sound.parent (move.isElement n ▸ element)
  hook state := by
    rw [infoFault?, move.info n _ (by decide) (by decide)]
    exact sound.hook (move.kind n ▸ state)

namespace Layout

structure Tidy (l : Layout) : Prop where
  anchored : l.Anchored
  named : NamesHooks l.nodes

variable {l m : Layout} {g : Node → Node}

theorem places_of_move (move : Node.IsMove g) (nodes : m.nodes = l.nodes.map g) :
    m.places = l.places := by
  have kept : m.elements = l.elements.map g := by
    rw [elements, nodes, List.filter_map]
    refine congrArg (List.map g) (List.filter_congr fun n _ => ?_)
    exact move.isElement n
  rw [places, kept, rows?_map move, places]

theorem columns_pairStates (l : Layout) (facts : Facts) :
    (l.pairStates facts).columns = l.columns := by
  unfold pairStates
  split
  · rw [columns_fit, placeRows_eq]
    rfl
  · rfl

namespace Tidy

theorem distinct (tidy : l.Tidy) : (nodeIds l.nodes).Nodup :=
  tidy.anchored.distinct

theorem pack (tidy : l.Tidy) : l.pack.Tidy where
  anchored := tidy.anchored.pack
  named := by
    rw [nodes_pack tidy.distinct]
    exact tidy.named.map Node.isMove_packed.id Node.isMove_packed.holds

theorem pairStates (tidy : l.Tidy) (f : Facts) : (l.pairStates f).Tidy where
  anchored := tidy.anchored.pairStates f
  named := by
    rw [nodes_pairStates tidy.distinct tidy.named]
    exact tidy.named.map Node.isMove_slotted.id Node.isMove_slotted.holds

theorem holder?_pack (tidy : l.Tidy) : l.pack.holder? = l.holder? :=
  holder?_of_map (nodes_pack tidy.distinct) Node.isMove_packed.id Node.isMove_packed.holds

theorem holder?_pairStates (tidy : l.Tidy) (f : Facts) : (l.pairStates f).holder? = l.holder? :=
  holder?_of_map (nodes_pairStates tidy.distinct tidy.named f) Node.isMove_slotted.id
    Node.isMove_slotted.holds

theorem nodes_pack_pairStates (tidy : l.Tidy) (f : Facts) : (l.pack.pairStates f).nodes =
    l.nodes.map fun n =>
      (n.packed l.columns.elements l.places).slotted l.leftSlot l.rightSlot (l.stateSlots f) := by
  rw [nodes_pairStates tidy.pack.distinct tidy.pack.named, nodes_pack tidy.distinct, List.map_map,
    leftSlot, rightSlot, columns_pack, stateSlots_congr tidy.holder?_pack]
  rfl

/-- The order of the refiners does not show in the nodes. -/
theorem nodes_pairStates_pack (tidy : l.Tidy) (f : Facts) :
    (l.pairStates f).pack.nodes = (l.pack.pairStates f).nodes := by
  have moved := nodes_pairStates tidy.distinct tidy.named f
  rw [nodes_pack (tidy.pairStates f).distinct, places_of_move Node.isMove_slotted moved, moved,
    columns_pairStates, tidy.nodes_pack_pairStates, List.map_map]
  exact List.map_congr_left fun n _ => Node.packed_slotted n

theorem nodes_pack_refined (tidy : l.Tidy) (f : Facts) :
    (l.pack.pairStates f).pack.nodes = (l.pack.pairStates f).nodes := by
  have packed := nodes_pack tidy.distinct
  have moved := nodes_pairStates tidy.pack.distinct tidy.pack.named f
  rw [nodes_pack (tidy.pack.pairStates f).distinct, places_of_move Node.isMove_slotted moved,
    places_of_move Node.isMove_packed packed, columns_pairStates, columns_pack,
    tidy.nodes_pack_pairStates, List.map_map]
  refine List.map_congr_left fun n _ => ?_
  rw [Function.comp_apply, Node.packed_slotted, Node.packed_packed]

theorem nodes_pairStates_refined (tidy : l.Tidy) (f : Facts) :
    ((l.pack.pairStates f).pairStates f).nodes = (l.pack.pairStates f).nodes := by
  have refined := tidy.pack.pairStates f
  have holder : (l.pack.pairStates f).holder? = l.holder? :=
    (tidy.pack.holder?_pairStates f).trans tidy.holder?_pack
  rw [nodes_pairStates refined.distinct refined.named, leftSlot, rightSlot, columns_pairStates,
    columns_pack, stateSlots_congr holder, tidy.nodes_pack_pairStates, List.map_map]
  refine List.map_congr_left fun n _ => ?_
  exact Node.slotted_slotted

theorem ties_pairStates_pack (tidy : l.Tidy) (f : Facts) :
    (l.pairStates f).pack.ties = (l.pack.pairStates f).ties := by
  rw [ties_pack, ties_pairStates, ties_pairStates, ties_pack, pairLinks_congr tidy.holder?_pack]

theorem ties_pairStates_refined (tidy : l.Tidy) (f : Facts) :
    ((l.pack.pairStates f).pairStates f).ties = (l.pack.pairStates f).ties := by
  rw [ties_pairStates, pairLinks_congr (tidy.pack.holder?_pairStates f), ties_pairStates]
  exact Tie.foldl_addNew_eq_self fun t within => Tie.id_mem_foldl_addNew within _

end Tidy

theorem Anchored.pack_eq (anchored : l.Anchored) (fitted : l.fit = l)
    (nodes : l.pack.nodes = l.nodes) : l.pack = l := by
  revert nodes
  unfold Layout.pack
  dsimp only
  split
  · exact fun _ => rfl
  · split
    · rename_i places _
      intro nodes
      rw [nodes_fit] at nodes
      change places.foldl (placeElement l.columns.elements) l.nodes = l.nodes at nodes
      rw [nodes]
      change l.refresh.fit = l
      rw [anchored.refresh_eq, fitted]
    · exact fun _ => rfl

theorem Anchored.pairStates_eq (anchored : l.Anchored) (fitted : l.fit = l) {f : Facts}
    (nodes : (l.pairStates f).nodes = l.nodes) (ties : (l.pairStates f).ties = l.ties) :
    l.pairStates f = l := by
  revert nodes ties
  unfold Layout.pairStates
  dsimp only
  split
  · intro nodes ties
    rw [nodes_fit] at nodes
    rw [ties_fit] at ties
    have drawn := anchored.eq (anchored.coherent.placeRows 0 _).refresh nodes ties
      (by rw [placeRows_eq]; rfl) (by rw [placeRows_eq]; rfl) (by rw [placeRows_eq]; rfl)
    rw [drawn, fitted]
  · exact fun _ _ => rfl

namespace Holds

variable {nodes : List Node}

theorem fit_eq (holds : l.Holds nodes) (drawn : l.nodes ⊆ nodes) : l.fit = l := by
  have width : (rightEnds l.nodes).foldl atLeast l.width = l.width :=
    Binary64.IsLargest.foldl_atLeast_eq_self fun b within =>
      holds.width.2 b (List.mem_cons_of_mem _ (List.map_subset _ drawn within))
  have height : (lowerEnds l.nodes).foldl atLeast l.height = l.height :=
    Binary64.IsLargest.foldl_atLeast_eq_self fun b within =>
      holds.height.2 b (List.mem_cons_of_mem _ (List.map_subset _ drawn within))
  rw [Layout.fit, foldl_growFor, width_foldl_growFor, height_foldl_growFor, width, height]

theorem width_eq (holds : l.Holds nodes) (other : m.Holds nodes)
    (numbers : ∀ n ∈ nodes, n.HasWidth) : m.width = l.width := by
  have same := other.width
  rw [other.columns, ← holds.columns] at same
  refine same.unique holds.width fun c within => ?_
  rcases List.mem_cons.mp within with rfl | within
  · rw [holds.columns]
    exact Binary64.finite_add_ne_nan 960 nofun
  · obtain ⟨n, held, rfl⟩ := List.mem_map.mp within
    exact (numbers n held).reach_ne_nan

theorem height_eq (holds : l.Holds nodes) (other : m.Holds nodes)
    (numbers : ∀ n ∈ nodes, n.HasHeight) : m.height = l.height := by
  refine other.height.unique holds.height fun c within => ?_
  rcases List.mem_cons.mp within with rfl | within
  · nofun
  · obtain ⟨n, held, rfl⟩ := List.mem_map.mp within
    exact (numbers n held).reach_ne_nan

end Holds

variable (f : Facts)

theorem tidy_unmoved : (unmoved f).Tidy :=
  ⟨(Builder.anchored_ofFacts f).fit, namesHooks_unmoved⟩

/-- The places that states have after pairing and before packing add nothing. -/
theorem holds_pairStates_pack :
    ((unmoved f).pairStates f).pack.Holds ((unmoved f).nodes ++ (ofFacts f).nodes) := by
  have tidy := tidy_unmoved f
  have paired := nodes_pairStates tidy.distinct tidy.named f
  have packed := nodes_pack (tidy.pairStates f).distinct
  have holds := ((holds_unmoved f).pairStates (List.Subset.refl _) f).pack
    (List.subset_append_right _ _)
  rw [tidy.nodes_pairStates_pack] at holds packed
  refine holds.congr fun n => ?_
  have between : n ∈ ((unmoved f).pairStates f).nodes →
      n ∈ (unmoved f).nodes ∨ n ∈ ((unmoved f).pack.pairStates f).nodes := by
    intro within
    by_cases element : n.isElement
    · left
      rw [paired] at within
      obtain ⟨m, held, rfl⟩ := List.mem_map.mp within
      have other : m.kind ≠ .state := by
        rw [Node.isElement, Node.kind_slotted, beq_iff_eq] at element
        rw [element]
        decide
      rwa [Node.slotted_of_kind other]
    · right
      rw [packed]
      exact List.mem_map.mpr ⟨n, within, Node.packed_of_not_isElement element⟩
  change n ∈ (unmoved f).nodes ++ ((unmoved f).pack.pairStates f).nodes ↔ _
  simp only [List.mem_append]
  constructor
  · rintro (first | last)
    · exact .inl (.inl first)
    · exact .inr last
  · rintro ((first | paired) | last)
    · exact .inl first
    · exact between paired
    · exact .inr last

theorem hasWidth_of_mem :
    ∀ n ∈ (unmoved f).nodes ++ (ofFacts f).nodes, n.HasWidth ∧ n.HasHeight := by
  obtain ⟨places, next, settles⟩ := exists_settles f
  intro n within
  rcases List.mem_append.mp within with first | last
  · exact ⟨hasWidth_unmoved first, hasHeight_unmoved first⟩
  · rw [settles.settled] at last
    obtain ⟨m, held, rfl⟩ := List.mem_map.mp last
    have packed : (m.packed Columns.standard.elements places).HasWidth :=
      ⟨(x_packed_unmoved held) ▸ (hasWidth_unmoved held).1,
        Node.width_packed.trans (hasWidth_unmoved held).2⟩
    have left : (unmoved f).pack.leftSlot ≠ .nan := by
      rw [leftSlot_unmoved]
      nofun
    have right : (unmoved f).pack.rightSlot ≠ .nan := by
      rw [rightSlot_unmoved]
      nofun
    exact ⟨packed.slotted left right, (hasHeight_unmoved held).packed.slotted⟩

theorem pairStates_pack_unmoved : ((unmoved f).pairStates f).pack = ofFacts f := by
  have tidy := tidy_unmoved f
  have numbers := hasWidth_of_mem f
  have left := holds_first_last f
  have right := holds_pairStates_pack f
  exact (anchored_ofFacts f).eq (tidy.pairStates f).pack.anchored (tidy.nodes_pairStates_pack f)
    (tidy.ties_pairStates_pack f)
    (left.width_eq right fun n within => (numbers n within).1)
    (left.height_eq right fun n within => (numbers n within).2)
    (right.columns.trans left.columns.symm)

theorem fit_ofFacts : (ofFacts f).fit = ofFacts f :=
  (holds_first_last f).fit_eq (List.subset_append_right _ _)

theorem pack_ofFacts : (ofFacts f).pack = ofFacts f :=
  (anchored_ofFacts f).pack_eq (fit_ofFacts f) ((tidy_unmoved f).nodes_pack_refined f)

theorem pairStates_ofFacts : (ofFacts f).pairStates f = ofFacts f :=
  (anchored_ofFacts f).pairStates_eq (fit_ofFacts f) ((tidy_unmoved f).nodes_pairStates_refined f)
    ((tidy_unmoved f).ties_pairStates_refined f)

section Attempts

def IsSound (l : Layout) : Prop :=
  ∀ n ∈ l.nodes, n.IsSound

theorem IsSound.move {l m : Layout} {g : Node → Node} (sound : l.IsSound) (move : Node.IsMove g)
    (nodes : m.nodes = l.nodes.map g) : m.IsSound := by
  intro n within
  rw [nodes] at within
  obtain ⟨o, held, rfl⟩ := List.mem_map.mp within
  exact (sound o held).move move

theorem IsSound.run_pack {l : Layout} (sound : l.IsSound) : Attempt.pack.run l = .ok () l.pack :=
  Attempt.run_pack (fun n held => (sound n held).unwritten) (fun n held => (sound n held).depth)
    fun n held => (sound n held).parent

theorem IsSound.run_pairStates {l : Layout} (sound : l.IsSound) (f : Facts) :
    (Attempt.pairStates f).run l = .ok () (l.pairStates f) := by
  refine Attempt.run_pairStates f (fun n held => (sound n held).unwritten) fun n held state => ?_
  rw [Node.isHookState, Bool.and_eq_true, beq_iff_eq] at state
  exact (sound n held).hook state.1

theorem sound_unmoved {f : Facts}
    (near : ∀ e ∈ f.elements, (Binary64.ofRat (e.depth * 160 : Int)).isFinite) :
    (unmoved f).IsSound := by
  intro n held
  have lane := lane_unmoved held
  refine ⟨?_, fun element => ?_, fun element => ?_, fun state => ?_⟩
  · exact Facts.forall_requestedNodes (P := (·.written = none)) (fun _ _ _ _ => rfl)
      (fun _ _ _ => rfl) n (requested_unmoved held)
  · rw [beq_iff_eq.mp element] at lane
    obtain ⟨index, e, within, rfl⟩ := Facts.exists_element_of_mem_elementNodes lane
    have found : (elementNode Columns.standard index e).info.get? "depth" = some (.int e.depth) := by
      simp [elementNode, Table.get?]
    rw [Node.depthFault?, found]
    change Fault.ofTerm? (.int (e.depth * 160)) = none
    rw [Fault.ofTerm?, if_pos (near e within)]
  · rw [beq_iff_eq.mp element] at lane
    obtain ⟨index, e, within, rfl⟩ := Facts.exists_element_of_mem_elementNodes lane
    have found : (elementNode Columns.standard index e).info.get? "parent_id" =
        some (.ofText? (parentNodeId? e)) := by
      simp [elementNode, Table.get?]
    rw [Node.infoFault?, found]
    cases parentNodeId? e <;> rfl
  · rw [state] at lane
    obtain ⟨h, -, -, y, rfl⟩ := Facts.exists_state_of_mem_stateNodes lane
    rfl

/-- The refiners can be run in either order and come to the same layout, which is the one that is
built. Running one of them on it again changes nothing, and neither does drawing its edges again or
fitting its canvas. -/
theorem refiners_commute (f : Facts) :
    (build (some f) = .error .tooLarge ∧
      ∃ e ∈ f.elements, (Binary64.ofRat (e.depth * 160 : Int)).isFinite = false) ∨
    ∃ l, build (some f) = .ok l ∧
      (do Attempt.pack; Attempt.pairStates f : Attempt).run (Builder.ofFacts f).toLayout = .ok () l ∧
      (do Attempt.pairStates f; Attempt.pack : Attempt).run (Builder.ofFacts f).toLayout = .ok () l ∧
      Attempt.pack.run l = .ok () l ∧ (Attempt.pairStates f).run l = .ok () l ∧
      Attempt.refresh.run l = .ok () l ∧ Attempt.fit.run l = .ok () l := by
  refine (build_cases f).imp id fun built => ⟨ofFacts f, built, ?_⟩
  have tidy := tidy_unmoved f
  have first := sound_unmoved (isFinite_of_build built)
  have packed : (unmoved f).pack.IsSound := first.move Node.isMove_packed (nodes_pack tidy.distinct)
  have paired : ((unmoved f).pairStates f).IsSound :=
    first.move Node.isMove_slotted (nodes_pairStates tidy.distinct tidy.named f)
  have last : (ofFacts f).IsSound :=
    packed.move Node.isMove_slotted (nodes_pairStates tidy.pack.distinct tidy.pack.named f)
  have unwritten : (ofFacts f).Unwritten := fun n held => (last n held).unwritten
  refine ⟨?_, ?_, ?_, ?_, ?_, ?_⟩
  · change (do Attempt.pack; Attempt.pairStates f : Attempt).run (unmoved f) = _
    rw [EStateM.run_bind, first.run_pack]
    exact packed.run_pairStates f
  · change (do Attempt.pairStates f; Attempt.pack : Attempt).run (unmoved f) = _
    rw [EStateM.run_bind, first.run_pairStates f]
    exact paired.run_pack.trans (by rw [pairStates_pack_unmoved])
  · rw [last.run_pack, pack_ofFacts]
  · rw [last.run_pairStates, pairStates_ofFacts]
  · rw [Attempt.run_refresh unwritten, (anchored_ofFacts f).refresh_eq]
  · rw [Attempt.run_fit unwritten, fit_ofFacts]

end Attempts

end Layout

end RenderFlow.Graph
