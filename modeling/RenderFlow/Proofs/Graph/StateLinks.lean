import RenderFlow.Proofs.Facts.Patterns
import RenderFlow.Proofs.Graph.Asked
import RenderFlow.Proofs.Graph.StateColumn

/-!
The links between states. A link is drawn for each pair of the state column unless an earlier one has
its id, and no other edge has the id of a link. Main statement: `Layout.build_pairs_states`.
-/
namespace RenderFlow

open RenderFlow.Graph
open scoped List

def Hook.link (a b : Hook) : Tie :=
  .link a.nodeId b.nodeId

namespace Graph

def StateRow.link : StateRow → Option Tie
  | .pair first second =>
    some (.link (NodeKind.state.nodeId first) (NodeKind.state.nodeId second))
  | .value _ | .function _ => none

namespace Layout

def Linked (l : Layout) (a b : Hook) : Prop :=
  ∃ e ∈ l.edges, e.kind = .link ∧ e.source.nodeId = a.nodeId ∧ e.target.nodeId = b.nodeId

instance (l : Layout) (a b : Hook) : Decidable (l.Linked a b) :=
  inferInstanceAs (Decidable (∃ e ∈ l.edges, _))

def linksOf (l : Layout) (h : Hook) : List Edge :=
  l.edges.filter fun e =>
    e.kind == .link && (e.source.nodeId == h.nodeId || e.target.nodeId == h.nodeId)

variable {f : Facts} {places : Hierarchy.Places} {next : Nat}

theorem exists_wire_of_mem_ties {t : Tie} (within : t ∈ (unmoved f).ties) :
    ∃ w ∈ f.wires, t = w.tie := by
  obtain ⟨e, drawn, rfl⟩ := List.mem_map.mp within
  rw [edges_unmoved] at drawn
  rcases Builder.wire_of_mem_addWires drawn with old | ⟨w, asked, rfl⟩
  · rw [Builder.edges_ofFacts_inventory] at old
    cases old
  · exact ⟨w, asked, rfl⟩

section Distinct

variable (distinct : (f.hooks.map (·.id)).Nodup) (settles : Settles f places next)

include distinct settles

theorem pairLinks_unmoved : (unmoved f).pack.pairLinks f = f.stateRows.filterMap StateRow.link := by
  rw [pairLinks, states_eq distinct settles, ← Facts.stateRows]
  apply List.filterMap_congr
  intro r within
  have held {id : String} (placed : id ∈ r.hooks) :
      (unmoved f).pack.holder? id = some (NodeKind.state.nodeId id) := by
    obtain ⟨h, listed, rfl⟩ :=
      f.plans_stateRows.known within placed
    obtain ⟨listed, state⟩ := List.mem_filter.mp listed
    rw [holder?_unmoved distinct settles listed, if_pos state]
    rfl
  cases r with
  | pair first second =>
    rw [StateRow.link?, held (by simp [StateRow.hooks]), held (by simp [StateRow.hooks])]
    rfl
  | value hook => rfl
  | function hook => rfl

/-- The links are those of the pairs, each the first one with its id. -/
theorem link_mem_ties_iff (a b : Hook) :
    a.link b ∈ (ofFacts f).ties ↔
      ∃ before after, f.stateRows = before ++ .pair a.id b.id :: after ∧
        (a.link b).id ∉ (before.filterMap StateRow.link).map (·.id) := by
  have ties : (ofFacts f).ties =
      (f.stateRows.filterMap StateRow.link).foldl Tie.addNew (unmoved f).ties := by
    rw [← pairLinks_unmoved distinct settles, ← ties_pack (unmoved f)]
    exact ties_pairStates _ f
  rw [ties, Tie.mem_foldl_addNew_iff]
  constructor
  · rintro (drawn | ⟨front, back, split, -, unseen⟩)
    · obtain ⟨w, asked, same⟩ := exists_wire_of_mem_ties drawn
      exact absurd (congrArg Tie.kind same).symm (kind_ne_link asked)
    · obtain ⟨before, rest, whole, rfl, tail⟩ := List.filterMap_eq_append_iff.mp split
      obtain ⟨silent, r, after, rfl, none, own, -⟩ := List.filterMap_eq_cons_iff.mp tail
      have pair : r = .pair a.id b.id := by
        cases r with
        | pair first second =>
          have same := Option.some.inj own
          rw [NodeKind.nodeId_injective (congrArg Tie.source same),
            NodeKind.nodeId_injective (congrArg Tie.target same)]
        | value hook => cases own
        | function hook => cases own
      refine ⟨before ++ silent, after, by rw [whole, List.append_assoc, pair], ?_⟩
      rwa [List.filterMap_append, List.filterMap_eq_nil_iff.mpr none, List.append_nil]
  · rintro ⟨before, after, split, unseen⟩
    refine .inr ⟨before.filterMap StateRow.link, after.filterMap StateRow.link, ?_, ?_, unseen⟩
    · rw [split, List.filterMap_append]
      rfl
    · -- What was drawn before are wires, and these have other ids.
      intro old
      obtain ⟨t, drawn, same⟩ := List.mem_map.mp old
      obtain ⟨w, asked, rfl⟩ := exists_wire_of_mem_ties drawn
      exact link_id_ne asked a.nodeId b.nodeId same.symm

omit distinct settles in
theorem linked_iff (a b : Hook) : (ofFacts f).Linked a b ↔ a.link b ∈ (ofFacts f).ties := by
  constructor
  · rintro ⟨e, drawn, kind, source, target⟩
    have within : e.tie ∈ (ofFacts f).ties := List.mem_map_of_mem drawn
    rcases tie_cases drawn with ⟨w, asked, same⟩ | ⟨first, second, -, -, same⟩
    · exact absurd ((congrArg Tie.kind same).symm.trans kind) (kind_ne_link asked)
    · have leaves : first = a.nodeId := (congrArg Tie.source same).symm.trans source
      have enters : second = b.nodeId := (congrArg Tie.target same).symm.trans target
      rw [same, leaves, enters] at within
      exact within
  · intro within
    obtain ⟨e, drawn, same⟩ := List.mem_map.mp within
    exact ⟨e, drawn, congrArg Tie.kind same, congrArg Tie.source same, congrArg Tie.target same⟩

omit settles in
theorem listed_of_ids {a b : Hook} (left : a ∈ f.states) (right : b ∈ f.states)
    (ids : [a.id, b.id] <+ f.states.map (·.id)) : [a, b] <+ f.states := by
  obtain ⟨pair, part, same⟩ := List.sublist_map_iff.mp ids
  obtain ⟨a', rest, rfl, first, tail⟩ := List.map_eq_cons_iff.mp same.symm
  obtain ⟨b', none, rfl, second, nil⟩ := List.map_eq_cons_iff.mp tail
  obtain rfl := List.map_eq_nil_iff.mp nil
  have held : a' ∈ f.states ∧ b' ∈ f.states :=
    ⟨part.subset List.mem_cons_self, part.subset (List.mem_cons_of_mem a' List.mem_cons_self)⟩
  rwa [eq_of_id distinct held.1 left first, eq_of_id distinct held.2 right second] at part

omit settles in
theorem pair_mem_before_iff (apart : Hook.Apart f.states) {a b c d : Hook} (listed : a ∈ f.states)
    (mates : Hook.Mates f.states c d) {before after : List StateRow}
    (split : f.stateRows = before ++ .pair a.id b.id :: after) :
    .pair c.id d.id ∈ before ↔ [c, a] <+ f.states := by
  constructor
  · intro front
    exact listed_of_ids distinct mates.mem_left listed (f.plans_stateRows.listed split front)
  · intro order
    have order_ids : [c.id, a.id] <+ f.states.map (·.id) := order.map Hook.id
    have held : .pair c.id d.id ∈ f.stateRows :=
      (pair_mem_stateRows_iff distinct apart c.id d.id).mpr ⟨c, d, mates, rfl, rfl⟩
    rw [split, List.mem_append, List.mem_cons] at held
    rcases held with front | own | back
    · exact front
    · rw [(StateRow.pair.inj own).1] at order_ids
      exact absurd order_ids (not_sublist_swap (distinct_states distinct) order_ids)
    · -- Behind the row of `a` it would come in the other order.
      obtain ⟨middle, tail, rfl⟩ := List.append_of_mem back
      have behind : f.stateRows =
          (before ++ .pair a.id b.id :: middle) ++ .pair c.id d.id :: tail := by simp [split]
      have reversed := f.plans_stateRows.listed behind (s := .pair a.id b.id) (by simp)
      exact absurd reversed (not_sublist_swap (distinct_states distinct) order_ids)

/-- Mates are linked, unless mates before them have a link with the same id. -/
theorem linked_iff_mates (apart : Hook.Apart f.states) {a b : Hook} (left : a ∈ f.states)
    (right : b ∈ f.states) :
    (ofFacts f).Linked a b ↔ Hook.Mates f.states a b ∧
      ∀ c d, Hook.Mates f.states c d → [c, a] <+ f.states → (c.link d).id ≠ (a.link b).id := by
  have pairs := pair_mem_stateRows_iff distinct apart
  rw [linked_iff, link_mem_ties_iff distinct settles]
  constructor
  · rintro ⟨before, after, split, unseen⟩
    have planned : .pair a.id b.id ∈ f.stateRows := by simp [split]
    obtain ⟨a', b', mates, first, second⟩ := (pairs a.id b.id).mp planned
    rw [eq_of_id distinct mates.mem_left left first, eq_of_id distinct mates.mem_right right second]
      at mates
    refine ⟨mates, ?_⟩
    intro c d earlier order same
    have front := (pair_mem_before_iff distinct apart left earlier split).mpr order
    apply unseen
    rw [← same]
    exact List.mem_map_of_mem (List.mem_filterMap.mpr ⟨_, front, rfl⟩)
  · rintro ⟨mates, first⟩
    obtain ⟨before, after, split⟩ := List.append_of_mem ((pairs a.id b.id).mpr ⟨a, b, mates, rfl, rfl⟩)
    refine ⟨before, after, split, ?_⟩
    intro seen
    obtain ⟨t, asked, same⟩ := List.mem_map.mp seen
    obtain ⟨r, front, own⟩ := List.mem_filterMap.mp asked
    cases r with
    | pair x y =>
      have held : .pair x y ∈ f.stateRows := by
        rw [split]
        exact List.mem_append_left _ front
      obtain ⟨c, d, earlier, rfl, rfl⟩ := (pairs x y).mp held
      have order := (pair_mem_before_iff distinct apart left earlier split).mp front
      exact first c d earlier order ((congrArg Tie.id (Option.some.inj own)).trans same)
    | value hook => cases own
    | function hook => cases own

omit distinct settles in
theorem exists_link {e : Edge} (drawn : e ∈ (ofFacts f).edges) (kind : e.kind = .link) :
    ∃ a ∈ f.states, ∃ b ∈ f.states, e.tie = a.link b := by
  rcases tie_cases drawn with ⟨w, asked, same⟩ | ⟨first, second, leaves, enters, same⟩
  · exact absurd ((congrArg Tie.kind same).symm.trans kind) (kind_ne_link asked)
  · have hook {id : String}
        (counted : (id, NodeKind.state) ∈ census (Inventory.ofFacts f).builder.nodes) :
        ∃ h ∈ f.states, id = h.nodeId := by
      obtain ⟨n, held, rfl, state⟩ := exists_of_mem_census counted
      rw [← nodes_unmoved] at held
      obtain ⟨h, listed, named, -⟩ := exists_hook_of_state held state
      exact ⟨h, listed, named⟩
    obtain ⟨a, left, rfl⟩ := hook leaves
    obtain ⟨b, right, rfl⟩ := hook enters
    exact ⟨a, left, b, right, same⟩

theorem length_linksOf_le (apart : Hook.Apart f.states) {h : Hook} (listed : h ∈ f.states) :
    ((ofFacts f).linksOf h).length ≤ 1 := by
  have mates {e : Edge} (within : e ∈ (ofFacts f).linksOf h) :
      ∃ a b, Hook.Mates f.states a b ∧ (a = h ∨ b = h) ∧ e.tie = a.link b := by
    simp only [linksOf, List.mem_filter, Bool.and_eq_true, Bool.or_eq_true, beq_iff_eq] at within
    obtain ⟨drawn, kind, touches⟩ := within
    obtain ⟨a, left, b, right, same⟩ := exists_link drawn kind
    have source : e.source.nodeId = a.nodeId := congrArg Tie.source same
    have target : e.target.nodeId = b.nodeId := congrArg Tie.target same
    have linked := (linked_iff_mates distinct settles apart left right).mp
      ⟨e, drawn, kind, source, target⟩
    rw [source, target] at touches
    refine ⟨a, b, linked.1, ?_, same⟩
    exact touches.imp (fun same => eq_of_id distinct left listed (NodeKind.nodeId_injective same))
      fun same => eq_of_id distinct right listed (NodeKind.nodeId_injective same)
  have single : ∀ d ∈ (ofFacts f).linksOf h, ∀ e ∈ (ofFacts f).linksOf h, d = e := by
    intro d left e right
    obtain ⟨a, b, first, touches, tie⟩ := mates left
    obtain ⟨a', b', second, touches', tie'⟩ := mates right
    obtain ⟨rfl, rfl⟩ := apart.mates_unique first second touches touches'
    have ids : d.id = e.id := congrArg Tie.id (tie.trans tie'.symm)
    exact List.inj_on_of_nodup_map (distinct_edges_ofFacts f) (List.mem_of_mem_filter left)
      (List.mem_of_mem_filter right) ids
  have nodup : ((ofFacts f).linksOf h).Nodup := (distinct_edges_ofFacts f).of_map.filter _
  rcases links : (ofFacts f).linksOf h with _ | ⟨first, _ | ⟨second, rest⟩⟩
  · exact Nat.zero_le 1
  · exact Nat.le_refl 1
  · rw [links] at single nodup
    have same := single first List.mem_cons_self second
      (List.mem_cons_of_mem first List.mem_cons_self)
    rw [same] at nodup
    exact absurd List.mem_cons_self (List.nodup_cons.mp nodup).1

end Distinct

/-- No two state nodes stand at one place, and their rows are the first ones of the column. -/
structure FillsColumn (l : Layout) : Prop where
  apart : (l.nodes.filter (·.kind == .state)).Pairwise fun m n => m.x = n.x → m.y ≠ n.y
  rows : ∃ count, ∀ y, (∃ n ∈ l.nodes, n.kind = .state ∧ n.y = y) ↔
    ∃ row < count, y = ((80 + row * 40 : Nat) : Binary64)

/-- Mates share a row, and are linked unless mates before them have a link with the same id. Every
other hook has its row for itself. -/
structure ShowsMates (f : Facts) (l : Layout) : Prop where
  once : ∀ h ∈ f.states, (l.linksOf h).length ≤ 1
  linked : ∀ a ∈ f.states, ∀ b ∈ f.states, l.Linked a b ↔ Hook.Mates f.states a b ∧
    ∀ c d, Hook.Mates f.states c d → [c, a] <+ f.states → (c.link d).id ≠ (a.link b).id
  beside : ∀ a b, Hook.Mates f.states a b →
    ∃ row, ∃ m ∈ l.nodes, ∃ n ∈ l.nodes,
      m.id = a.nodeId ∧ n.id = b.nodeId ∧ m.StandsIn false row ∧ n.StandsIn true row
  alone : ∀ h ∈ f.states, (∀ k, ¬ Hook.Mates f.states h k ∧ ¬ Hook.Mates f.states k h) →
    ∃ row, ∃ m ∈ l.nodes, m.id = h.nodeId ∧ m.StandsIn (f.calledNames.contains h.name) row ∧
      ∀ n ∈ l.nodes, n.kind = .state → n.y = m.y → n.id = m.id

theorem fillsColumn_ofFacts (distinct : (f.hooks.map (·.id)).Nodup) (settles : Settles f places next) :
    (ofFacts f).FillsColumn := by
  refine ⟨?_, f.stateRows.length, exists_state_on_row_iff distinct settles⟩
  have ids : (ofFacts f).nodes.Pairwise fun m n => m.id ≠ n.id :=
    List.pairwise_map.mp (anchored_ofFacts f).distinct
  refine List.Pairwise.imp_of_mem ?_ (ids.filter _)
  intro m n left right other across
  obtain ⟨left, first⟩ := List.mem_filter.mp left
  obtain ⟨right, second⟩ := List.mem_filter.mp right
  rw [beq_iff_eq] at first second
  exact states_apart distinct settles left right first second other across

theorem showsMates_ofFacts (distinct : (f.hooks.map (·.id)).Nodup) (settles : Settles f places next)
    (apart : Hook.Apart f.states) : (ofFacts f).ShowsMates f where
  once := fun _ => length_linksOf_le distinct settles apart
  linked := fun _ left _ right => linked_iff_mates distinct settles apart left right
  beside := fun _ _ mates => exists_side_by_side distinct settles apart mates
  alone := fun _ listed free => exists_alone distinct settles listed free

/-- The state nodes of hooks with distinct ids fill the first rows of their column, each a place of its
own. Where no two hooks have one place in one array pattern, which holds of an analysis whose calls
stand apart, the first two names of an array pattern are side by side and linked. -/
theorem build_pairs_states (distinct : (f.hooks.map (·.id)).Nodup) :
    (∀ parser source fileName, analyze parser source fileName = .ok f →
      (parsed parser source fileName).SeparatesHooks → Hook.Apart f.hooks) ∧
    ((build (some f) = .error .tooLarge ∧
        ∃ e ∈ f.elements, (Binary64.ofRat (e.depth * 160 : Int)).isFinite = false) ∨
      ∃ l, build (some f) = .ok l ∧ l.FillsColumn ∧ (Hook.Apart f.hooks → l.ShowsMates f)) := by
  constructor
  · intro parser source fileName analyzed separate
    exact Facts.apart_of_analyze separate analyzed
  refine (build_cases f).imp id ?_
  intro built
  obtain ⟨places, next, settles⟩ := exists_settles f
  refine ⟨ofFacts f, built, fillsColumn_ofFacts distinct settles, ?_⟩
  intro apart
  apply showsMates_ofFacts distinct settles
  intro a left b right
  exact apart a (List.mem_of_mem_filter left) b (List.mem_of_mem_filter right)

/-- A component `F` with a state `v` and its setter `s`, and a state `w` that is called. -/
def pairedTree : Tree Span :=
  let word (kind : String) (field : Option String) (start stop : Nat) : Tree Span :=
    .node ⟨kind, field, start, stop, true, false, false, 0⟩ []
  let branch (kind : String) (field : Option String) (start : Nat) (below : List (Tree Span)) :
      Tree Span :=
    .node ⟨kind, field, start, 27, true, false, false, 0⟩ below
  let call (field : Option String) (start stop : Nat) : Tree Span :=
    branch "call_expression" field start [word "identifier" (some "function") start stop]
  let declared (start : Nat) (below : List (Tree Span)) : Tree Span :=
    branch "variable_declarator" none start below
  branch "program" none 0 [
    branch "export_statement" none 0 [
      branch "function_declaration" (some "declaration") 0 [
        word "identifier" (some "name") 0 1,
        branch "statement_block" (some "body") 2 [
          declared 2 [
            branch "array_pattern" (some "name") 2 [
              word "identifier" none 2 3, word "," none 3 4, word "identifier" none 4 5],
            call (some "value") 6 14],
          declared 15 [
            branch "array_pattern" (some "name") 15 [word "identifier" none 15 16],
            call (some "value") 17 25],
          call none 26 27]]]]

def pairedSource : RawText :=
  .ofString "F v,s useState w useState w"

def pairedFacts : Facts :=
  .ofTree pairedSource.clean none (pairedTree.resolve pairedSource.encode)

theorem pairedTree_pairs_states :
    (pairedFacts.hooks.map (·.id)).Nodup ∧
      analyze (fun _ _ => pairedTree) pairedSource none = .ok pairedFacts ∧
      (parsed (fun _ _ => pairedTree) pairedSource none).SeparatesHooks ∧
      pairedFacts.states.map (·.name) = ["v", "s", "w"] ∧ pairedFacts.calledNames.contains "w" ∧
      ∃ l, build (some pairedFacts) = .ok l ∧ l.FillsColumn ∧ l.ShowsMates pairedFacts := by
  have distinct : (pairedFacts.hooks.map (·.id)).Nodup := by decide +kernel
  have analyzed : analyze (fun _ _ => pairedTree) pairedSource none = .ok pairedFacts := by
    decide +kernel
  have separate : (parsed (fun _ _ => pairedTree) pairedSource none).SeparatesHooks := by
    decide +kernel
  refine ⟨distinct, analyzed, separate, by decide +kernel, by decide +kernel, ?_⟩
  obtain ⟨apart, built⟩ := build_pairs_states distinct
  obtain ⟨l, built, fills, shows⟩ := built.resolve_left fun failed => by
    obtain ⟨-, e, within, -⟩ := failed
    have none_listed : pairedFacts.elements = [] := by decide +kernel
    rw [none_listed] at within
    cases within
  exact ⟨l, built, fills, shows (apart _ _ _ analyzed separate)⟩

/-- Two values with their setters whose links have one id, since ids of hooks may hold the sign that
joins them. -/
def echoedPairs : Facts where
  source := ""
  hooks := [
    ⟨"a", "v", .localState, .component, some ⟨1, 0⟩, ⟨none, none, .array, 0⟩⟩,
    ⟨"b-state-c", "setV", .localState, .component, some ⟨1, 0⟩, ⟨none, none, .array, 1⟩⟩,
    ⟨"a-state-b", "w", .localState, .component, some ⟨2, 0⟩, ⟨none, none, .array, 0⟩⟩,
    ⟨"c", "setW", .localState, .component, some ⟨2, 0⟩, ⟨none, none, .array, 1⟩⟩]

/-- The second value and its setter are mates but not linked. -/
theorem echoedPairs_linked_once :
    ∃ l, build (some echoedPairs) = .ok l ∧ (echoedPairs.hooks.map (·.id)).Nodup ∧
      Hook.Apart echoedPairs.hooks ∧
      ∃ a ∈ echoedPairs.states, ∃ b ∈ echoedPairs.states,
        Hook.Mates echoedPairs.states a b ∧ ¬ l.Linked a b :=
  ⟨ofFacts echoedPairs, build_eq_ok nofun, by decide +kernel⟩

end Layout

end Graph

end RenderFlow
