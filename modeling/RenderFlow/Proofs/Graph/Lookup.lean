import RenderFlow.Proofs.Graph.Subjects

/-!
Which hook a name leads to. Hooks that are numbered have nodes of their own, in their order, and a
name without a blank starts the label of a state exactly if it starts its name. Main statements: a
name leads to the first state whose name it starts, `Counted.exists_state?`, and to the first ref
that is called so, `Counted.exists_ref?`.
-/
namespace RenderFlow

open RenderFlow.Graph Text

theorem Text.hasPrefix_iff {s start : String} : hasPrefix s start ↔ start.toList <+: s.toList :=
  List.isPrefixOf_iff_prefix

theorem prefix_append_cons_iff {α : Type} {start first rest : List α} {mark : α}
    (unmarked : mark ∉ start) : start <+: first ++ mark :: rest ↔ start <+: first := by
  refine ⟨fun longer => ?_, fun shorter => shorter.trans (List.prefix_append _ _)⟩
  have marked : first ++ [mark] <+: first ++ mark :: rest :=
    (List.prefix_append_right_inj first).mpr ⟨rest, rfl⟩
  rcases Nat.lt_or_ge first.length start.length with beyond | within
  · have reaches : first ++ [mark] <+: start :=
      List.prefix_of_prefix_length_le marked longer (by simpa using Nat.succ_le_of_lt beyond)
    exact absurd (reaches.subset (by simp)) unmarked
  · exact List.prefix_of_prefix_length_le longer (List.prefix_append _ _) within

/-- The label of a state goes on with a blank, if at all. -/
theorem hasPrefix_label_ofState {name : String} (blankless : ' ' ∉ name.toList) (h : Hook) :
    hasPrefix (Item.ofState h).label name ↔ hasPrefix h.name name := by
  simp only [Item.ofState, Item.ofRef]
  split
  · have letters : (h.name ++ " (global)").toList = h.name.toList ++ ' ' :: "(global)".toList := by
      simp
    rw [hasPrefix_iff, hasPrefix_iff, letters, prefix_append_cons_iff blankless]
  · rfl

theorem eq_of_map_eq {α β : Type} {key : α → β} {left right : List α}
    (keys : left.map key = right.map key) (within : left ⊆ right)
    (distinct : (right.map key).Nodup) : left = right := by
  refine List.ext_getElem (by simpa using congrArg List.length keys) fun i short short' => ?_
  have short_map : i < (left.map key).length := by rwa [List.length_map]
  have same : key left[i] = key right[i] := by
    simpa only [List.getElem_map] using List.getElem_of_eq keys short_map
  exact List.inj_on_of_nodup_map distinct (within (List.getElem_mem short))
    (List.getElem_mem short') same

namespace Graph

theorem nodeIds_stacked (kind : NodeKind) (x : Binary64) (start : Rat) (items : List Item) :
    nodeIds (stacked kind x start items) = items.map fun item => kind.nodeId item.id := by
  refine List.ext_getElem (by simp [nodeIds]) fun i _ _ => ?_
  simp [nodeIds, stacked, Builder.itemNode]

end Graph

namespace Facts

variable {f : Facts}

theorem Counted.distinct_hooks (counted : f.Counted) : (f.hooks.map (·.id)).Nodup := by
  rw [counted.hooks]
  exact List.Nodup.map (numberedId_injective "hook") List.nodup_range'

theorem Counted.distinct_stacked (counted : f.Counted) (p : Hook → Bool) {item : Hook → Item}
    (ids : ∀ h, (item h).id = h.id) (kind : NodeKind) (x : Binary64) (start : Rat) :
    (nodeIds (stacked kind x start ((f.hooks.filter p).map item))).Nodup := by
  have hooks : ((f.hooks.filter p).map (·.id)).Nodup :=
    counted.distinct_hooks.sublist (List.filter_sublist.map _)
  have named : nodeIds (stacked kind x start ((f.hooks.filter p).map item)) =
      ((f.hooks.filter p).map (·.id)).map kind.nodeId := by
    rw [nodeIds_stacked, List.map_map, List.map_map]
    exact List.map_congr_left fun h _ => congrArg kind.nodeId (ids h)
  rw [named]
  exact hooks.map fun _ _ => NodeKind.nodeId_injective

theorem column_eq {column asked : List Node}
    (held : column ⊆ (Inventory.ofFacts f).builder.nodes) (ids : nodeIds column = nodeIds asked)
    (lane : ∀ n ∈ column, n ∈ f.laneNodes n.kind.lane → n ∈ asked)
    (distinct : (nodeIds asked).Nodup) : column = asked :=
  eq_of_map_eq ids
    (fun n within => lane n within (f.mem_laneNodes (Inventory.requested_ofFacts (held within))))
    distinct

theorem Counted.states_eq (counted : f.Counted) : (Inventory.ofFacts f).states = f.stateNodes := by
  refine column_eq (Inventory.housed_ofFacts f).states (Inventory.nodeIds_states f) ?_
    (counted.distinct_stacked _ (fun _ => rfl) _ _ _)
  intro n within lane
  rwa [(Inventory.sorted_ofFacts f).states n within] at lane

theorem Counted.refs_eq (counted : f.Counted) : (Inventory.ofFacts f).refs = f.refNodes := by
  refine column_eq (Inventory.housed_ofFacts f).refs (Inventory.nodeIds_refs f) ?_
    (counted.distinct_stacked _ (fun _ => rfl) _ _ _)
  intro n within lane
  have kind := (Inventory.sorted_ofFacts f).refs n within
  rw [kind] at lane
  rcases List.mem_append.mp lane with ref | prop
  · exact ref
  · cases kind.symm.trans (kind_of_mem_stacked prop)

theorem Counted.elements_eq (counted : f.Counted) :
    (Inventory.ofFacts f).elements = f.elementNodes := by
  have records : (f.elements.map (·.id)).Nodup := by
    rw [counted.elements]
    exact List.Nodup.map (numberedId_injective "jsx") List.nodup_range'
  have named : nodeIds f.elementNodes = (f.elements.map (·.id)).map NodeKind.element.nodeId := by
    refine List.ext_getElem (by simp [nodeIds, elementNodes]) fun i _ _ => ?_
    simp [nodeIds, elementNodes]
  refine column_eq (Inventory.housed_ofFacts f).elements (Inventory.nodeIds_elements f) ?_ ?_
  · intro n within lane
    rwa [(Inventory.sorted_ofFacts f).elements n within] at lane
  · rw [named]
    exact records.map fun _ _ => NodeKind.nodeId_injective

/-- A name leads to the first state whose name it starts. -/
theorem Counted.exists_state? (counted : f.Counted) {before after : List Hook} {h : Hook}
    (hooks : f.hooks = before ++ h :: after) (holds : h.kind.isState) {name : String}
    (blankless : ' ' ∉ name.toList) (starts : hasPrefix h.name name)
    (first : ∀ g ∈ before, g.kind.isState → hasPrefix g.name name = false) :
    ∃ n, (Inventory.ofFacts f).state? name = some n ∧ n.id = NodeKind.state.nodeId h.id := by
  have items : f.stateItems = (before.filter (·.kind.isState)).map .ofState ++
      .ofState h :: (after.filter (·.kind.isState)).map .ofState := by
    rw [stateItems, hooks, List.filter_append, List.map_append]
    simp [List.filter_cons_of_pos, holds]
  rw [Inventory.state?, counted.states_eq, stateNodes, stacked, items, List.mapIdx_append,
    List.mapIdx_cons]
  refine ⟨_, List.find?_eq_some_iff_append.mpr ⟨?_, _, _, rfl, fun n earlier => ?_⟩, rfl⟩
  · exact (hasPrefix_label_ofState blankless h).mpr starts
  · obtain ⟨item, listed, y, rfl⟩ := exists_itemNode_of_mem_stacked earlier
    obtain ⟨g, held, rfl⟩ := List.mem_map.mp listed
    obtain ⟨within, state⟩ := List.mem_filter.mp held
    have apart := (hasPrefix_label_ofState blankless g).not.mpr (by simp [first g within state])
    simpa [Builder.itemNode] using apart

theorem Counted.exists_ref? (counted : f.Counted) {before after : List Hook} {h : Hook}
    (hooks : f.hooks = before ++ h :: after) (ref : h.kind = .ref)
    (first : ∀ g ∈ before, g.kind = .ref → g.name ≠ h.name) :
    ∃ n, (Inventory.ofFacts f).ref? h.name = some n ∧ n.id = NodeKind.independent.nodeId h.id := by
  have items : f.refItems = (before.filter (·.kind == .ref)).map .ofHook ++
      .ofHook h :: (after.filter (·.kind == .ref)).map .ofHook := by
    rw [refItems, hooks, List.filter_append, List.map_append]
    simp [List.filter_cons_of_pos, ref]
  rw [Inventory.ref?, Inventory.labelled?, counted.refs_eq, refNodes, stacked, items,
    List.mapIdx_append, List.mapIdx_cons]
  refine ⟨_, List.find?_eq_some_iff_append.mpr ⟨?_, _, _, rfl, fun n earlier => ?_⟩, rfl⟩
  · exact beq_self_eq_true h.name
  · obtain ⟨item, listed, y, rfl⟩ := exists_itemNode_of_mem_stacked earlier
    obtain ⟨g, held, rfl⟩ := List.mem_map.mp listed
    obtain ⟨within, kind⟩ := List.mem_filter.mp held
    have apart := first g within (beq_iff_eq.mp kind)
    simpa [Builder.itemNode, Item.ofHook, Item.ofRef] using apart

end Facts

end RenderFlow
