import RenderFlow.Proofs.Graph.Ties

/-!
The edges of a refined layout. Packing draws no new one, and pairing draws a link for each pair whose
id is free (`Layout.ties_pairStates`), so a second round links nothing. Where the edges of a layout
meet its boxes, the nodes and what the edges say tell the edges: `Layout.Anchored.edges_eq`.
-/
namespace RenderFlow.Graph

namespace Tie

def addNew (ties : List Tie) (t : Tie) : List Tie :=
  if t.id ∈ ties.map (·.id) then ties else ties ++ [t]

theorem isPrefix_addNew (ties : List Tie) (t : Tie) : ties <+: addNew ties t := by
  unfold addNew
  split
  · exact List.prefix_rfl
  · exact List.prefix_append _ _

theorem mem_addNew_iff {ties : List Tie} {first t : Tie} :
    t ∈ addNew ties first ↔ t ∈ ties ∨ t = first ∧ first.id ∉ ties.map (·.id) := by
  unfold addNew
  split
  · rename_i old
    simp [old]
  · rename_i new
    simp [new]

theorem id_mem_addNew_iff {ties : List Tie} {first : Tie} {id : String} :
    id ∈ (addNew ties first).map (·.id) ↔ id ∈ ties.map (·.id) ∨ id = first.id := by
  unfold addNew
  split
  · rename_i old
    exact ⟨.inl, fun known => known.elim (fun held => held) fun same => same ▸ old⟩
  · simp

theorem isPrefix_foldl_addNew (added ties : List Tie) : ties <+: added.foldl addNew ties := by
  induction added generalizing ties with
  | nil => exact List.prefix_rfl
  | cons t rest ih => exact (isPrefix_addNew ties t).trans (ih (addNew ties t))

theorem id_mem_foldl_addNew {added : List Tie} {t : Tie} (within : t ∈ added) (ties : List Tie) :
    t.id ∈ (added.foldl addNew ties).map (·.id) := by
  induction added generalizing ties with
  | nil => cases within
  | cons first rest ih =>
    rcases List.mem_cons.mp within with rfl | later
    · have own : t.id ∈ (addNew ties t).map (·.id) := id_mem_addNew_iff.mpr (.inr rfl)
      exact ((isPrefix_foldl_addNew rest (addNew ties t)).map _).subset own
    · exact ih later (addNew ties first)

/-- A tie is there afterwards if it was before, or if it is the first new one with its id. -/
theorem mem_foldl_addNew_iff {added ties : List Tie} {t : Tie} :
    t ∈ added.foldl addNew ties ↔ t ∈ ties ∨ ∃ before after, added = before ++ t :: after ∧
      t.id ∉ ties.map (·.id) ∧ t.id ∉ before.map (·.id) := by
  induction added generalizing ties with
  | nil => simp
  | cons first rest ih =>
    rw [List.foldl_cons, ih, mem_addNew_iff, id_mem_addNew_iff, not_or]
    constructor
    · rintro ((old | ⟨rfl, fresh⟩) | ⟨before, after, rfl, ⟨fresh, other⟩, unseen⟩)
      · exact .inl old
      · exact .inr ⟨[], rest, rfl, fresh, List.not_mem_nil⟩
      · refine .inr ⟨first :: before, after, rfl, fresh, ?_⟩
        rw [List.map_cons, List.mem_cons, not_or]
        exact ⟨other, unseen⟩
    · rintro (old | ⟨before, after, split, fresh, unseen⟩)
      · exact .inl (.inl old)
      · cases before with
        | nil =>
          obtain ⟨rfl, -⟩ := List.cons.inj split
          exact .inl (.inr ⟨rfl, fresh⟩)
        | cons own before =>
          obtain ⟨rfl, rest⟩ := List.cons.inj split
          rw [List.map_cons, List.mem_cons, not_or] at unseen
          exact .inr ⟨before, after, rest, ⟨fresh, unseen.1⟩, unseen.2⟩

theorem foldl_addNew_eq_self {added ties : List Tie} (known : ∀ t ∈ added, t.id ∈ ties.map (·.id)) :
    added.foldl addNew ties = ties := by
  induction added with
  | nil => rfl
  | cons t rest ih =>
    obtain ⟨first, others⟩ := List.forall_mem_cons.mp known
    rw [List.foldl_cons, addNew, if_pos first, ih others]

def draw? (nodes : List Node) (t : Tie) : Option Edge :=
  match lastNode? nodes t.source, lastNode? nodes t.target with
  | some source, some target => some (.between t.id source target t.kind t.label)
  | _, _ => none

end Tie

def StateRow.link? (holder? : String → Option String) : StateRow → Option Tie
  | .pair first second => (holder? first).bind fun id => (holder? second).map (Tie.link id)
  | .value _ | .function _ => none

namespace Layout

variable {l m : Layout}

theorem Anchored.draw?_tie (anchored : l.Anchored) {e : Edge} (within : e ∈ l.edges) :
    e.tie.draw? l.nodes = some e := by
  have known := (anchored.ends e within).isKnown
  obtain ⟨source, left, leaves, first⟩ := exists_lastNode? known.source
  obtain ⟨target, right, enters, second⟩ := exists_lastNode? known.target
  have drawn : Edge.between e.id source target e.kind e.label = e := by
    rw [Edge.between, ← anchored.source_eq within left leaves,
      ← anchored.target_eq within right enters]
  simp only [Tie.draw?, Edge.tie, first, second, drawn]

theorem Anchored.edges_eq (anchored : l.Anchored) (redrawn : m.Anchored) (nodes : m.nodes = l.nodes)
    (ties : m.ties = l.ties) : m.edges = l.edges := by
  have drawn {k : Layout} (anchored : k.Anchored) :
      k.ties.map (Tie.draw? k.nodes) = k.edges.map some := by
    rw [Layout.ties, List.map_map]
    exact List.map_congr_left fun e within => anchored.draw?_tie within
  apply List.map_injective_iff.mpr (Option.some_injective Edge)
  rw [← drawn anchored, ← drawn redrawn, nodes, ties]

theorem Anchored.eq (anchored : l.Anchored) (redrawn : m.Anchored) (nodes : m.nodes = l.nodes)
    (ties : m.ties = l.ties) (width : m.width = l.width) (height : m.height = l.height)
    (columns : m.columns = l.columns) : m = l := by
  have edges := anchored.edges_eq redrawn nodes ties
  cases l
  cases m
  simp only at nodes edges width height columns
  rw [nodes, edges, width, height, columns]

theorem Anchored.refresh_eq (anchored : l.Anchored) : l.refresh = l :=
  anchored.eq anchored.coherent.refresh rfl (ties_refresh l) rfl rfl rfl

theorem ties_pack (l : Layout) : l.pack.ties = l.ties := by
  unfold pack
  dsimp only
  split
  · rfl
  · split
    · rw [ties_fit, ties_refresh]
      rfl
    · rfl

def holder? (l : Layout) (hook : String) : Option String :=
  (l.stateNode? hook).map (·.id)

theorem holder?_congr (same : ∀ hook, m.nodes.map (fun n => (n.holdsHook hook, n.id)) =
    l.nodes.map fun n => (n.holdsHook hook, n.id)) : m.holder? = l.holder? := by
  have told (k : Layout) (hook : String) : k.holder? hook =
      (((k.nodes.map fun n => (n.holdsHook hook, n.id)).reverse).find? (·.1)).map (·.2) := by
    rw [← List.map_reverse, List.find?_map, Option.map_map]
    rfl
  funext hook
  rw [told, told, same]

theorem holder?_of_map {g : Node → Node} (nodes : m.nodes = l.nodes.map g)
    (id : ∀ n, (g n).id = n.id) (holds : ∀ n hook, (g n).holdsHook hook = n.holdsHook hook) :
    m.holder? = l.holder? := by
  refine holder?_congr fun hook => ?_
  rw [nodes, List.map_map]
  exact List.map_congr_left fun n _ => Prod.ext (holds n hook) (id n)

theorem holder?_placeState (l : Layout) (hook : String) (x : Binary64) (row : Nat) (slot : String) :
    (l.placeState hook x row slot).holder? = l.holder? := by
  refine holder?_congr fun other => map_updateLast (fun n => ?_) l.nodes
  rw [Node.holdsHook_inSlot, Node.id_inSlot]

theorem holder?_placeRow (l : Layout) (row : Nat) (r : StateRow) :
    (l.placeRow row r).holder? = l.holder? := by
  have linked (l : Layout) (value setter : String) :
      (l.linkStates value setter).holder? = l.holder? :=
    holder?_congr fun hook => by rw [nodes_linkStates]
  cases r with
  | pair value setter => rw [placeRow, linked, holder?_placeState, holder?_placeState]
  | value hook => exact holder?_placeState l _ _ _ _
  | function hook => exact holder?_placeState l _ _ _ _

theorem ties_linkStates (l : Layout) (value setter : String) :
    (l.linkStates value setter).ties =
      ((StateRow.pair value setter).link? l.holder?).toList.foldl Tie.addNew l.ties := by
  simp only [linkStates, StateRow.link?, holder?]
  cases l.stateNode? value with
  | none => rfl
  | some source =>
    cases l.stateNode? setter with
    | none => rfl
    | some target =>
      have known : (Tie.link source.id target.id).id ∈ l.ties.map (·.id) ↔
          l.edges.any (·.id == "link-" ++ source.id ++ "-" ++ target.id) := by
        rw [ids_ties, List.any_eq_true]
        simp [Tie.link]
      simp only [Option.map_some, Option.bind_some, Option.toList_some, List.foldl_cons,
        List.foldl_nil, Tie.addNew]
      by_cases old : (Tie.link source.id target.id).id ∈ l.ties.map (·.id)
      · rw [if_pos old, if_pos (known.mp old)]
      · rw [if_neg old, if_neg (mt known.mpr old), ties, List.map_append]
        rfl

theorem ties_placeRow (l : Layout) (row : Nat) (r : StateRow) :
    (l.placeRow row r).ties = (r.link? l.holder?).toList.foldl Tie.addNew l.ties := by
  cases r with
  | pair value setter =>
    rw [placeRow, ties_linkStates, holder?_placeState, holder?_placeState]
    rfl
  | value hook => rfl
  | function hook => rfl

theorem ties_placeRows (l : Layout) (row : Nat) (rows : List StateRow) :
    (l.placeRows row rows).ties =
      (rows.filterMap (StateRow.link? l.holder?)).foldl Tie.addNew l.ties := by
  induction rows generalizing l row with
  | nil => rfl
  | cons r rest ih =>
    rw [placeRows, ih, holder?_placeRow, ties_placeRow]
    cases linked : r.link? l.holder? with
    | none => rw [List.filterMap_cons_none linked]; rfl
    | some t => rw [List.filterMap_cons_some linked]; rfl

def pairLinks (l : Layout) (facts : Facts) : List Tie :=
  (StateRow.plan facts.calledNames
    (facts.hooks.filter fun h => (l.holder? h.id).isSome) []).filterMap (StateRow.link? l.holder?)

theorem isSome_holder? (l : Layout) (hook : String) :
    (l.holder? hook).isSome = (l.stateNode? hook).isSome :=
  Option.isSome_map

/-- Pairing the states adds a link for each pair, unless its id is taken. -/
theorem ties_pairStates (l : Layout) (facts : Facts) :
    (l.pairStates facts).ties = (l.pairLinks facts).foldl Tie.addNew l.ties := by
  unfold pairLinks
  simp only [isSome_holder?]
  rw [← ties_placeRows l 0]
  unfold pairStates
  split
  · rw [ties_fit, ties_refresh]
  · rename_i stateless
    simp only [stateNode?_eq_none stateless, Option.isSome_none, List.filter_false]
    rfl

theorem pairLinks_congr (same : m.holder? = l.holder?) (facts : Facts) :
    m.pairLinks facts = l.pairLinks facts := by
  rw [pairLinks, pairLinks, same]

theorem stateSlots_congr (same : m.holder? = l.holder?) (facts : Facts) :
    m.stateSlots facts = l.stateSlots facts := by
  unfold stateSlots
  simp only [← isSome_holder?, same]

end Layout

end RenderFlow.Graph
