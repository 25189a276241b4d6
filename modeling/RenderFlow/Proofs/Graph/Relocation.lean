import Mathlib.Data.List.Zip
import RenderFlow.Proofs.Graph.Unplaced

/-!
Moving code. Where its records were defined reaches the graph of a component in one way only: pairing
asks of two hooks whether they come from one statement. Main statement: `Layout.build_moved`.
-/
namespace RenderFlow

open RenderFlow.Graph

/-- The hooks of one component before and after its code was moved, hook by hook. A hook shares a
statement with itself just when its place is known. -/
structure Hook.Moved (pairs : List (Hook × Hook)) : Prop where
  same : ∀ p ∈ pairs, p.1.unplaced = p.2.unplaced
  statements : ∀ p ∈ pairs, ∀ q ∈ pairs, p.1.sameStatement q.1 = p.2.sameStatement q.2

/-- One component before and after its code was moved: the source text and the places of the records
are all that differs, and two hooks share a statement in the one just when they do in the other. -/
structure Facts.Moved (f g : Facts) : Prop where
  same : f.unplaced = g.unplaced
  statements : ∀ p ∈ f.hooks.zip g.hooks, ∀ q ∈ f.hooks.zip g.hooks,
    p.1.sameStatement q.1 = p.2.sameStatement q.2

namespace Hook

variable {pairs rest : List (Hook × Hook)}

theorem Moved.sublist (moved : Moved pairs) (part : rest ⊆ pairs) : Moved rest :=
  ⟨fun p within => moved.same p (part within),
    fun p left q right => moved.statements p (part left) q (part right)⟩

theorem Moved.id (moved : Moved pairs) {p : Hook × Hook} (within : p ∈ pairs) : p.1.id = p.2.id :=
  congrArg (·.id) (moved.same p within)

theorem Moved.name (moved : Moved pairs) {p : Hook × Hook} (within : p ∈ pairs) :
    p.1.name = p.2.name :=
  congrArg (·.name) (moved.same p within)

theorem Moved.origin (moved : Moved pairs) {p : Hook × Hook} (within : p ∈ pairs) :
    p.1.origin = p.2.origin :=
  congrArg (·.origin) (moved.same p within)

/-- A search that cannot tell the hooks of a pair apart finds both of one pair. -/
theorem exists_find?_pairs {P Q : Hook → Bool} (blind : ∀ p ∈ pairs, P p.1 = Q p.2) :
    ∃ found : Option (Hook × Hook), (∀ p, found = some p → p ∈ pairs) ∧
      (pairs.map Prod.fst).find? P = found.map Prod.fst ∧
      (pairs.map Prod.snd).find? Q = found.map Prod.snd := by
  induction pairs with
  | nil => exact ⟨none, by simp, rfl, rfl⟩
  | cons p rest ih =>
    obtain ⟨first, others⟩ := List.forall_mem_cons.mp blind
    by_cases sought : P p.1
    · refine ⟨some p, ?_, ?_, ?_⟩
      · rintro q ⟨⟩
        exact List.mem_cons_self
      · simp [sought]
      · simp [← first, sought]
    · obtain ⟨found, within, left, right⟩ := ih others
      refine ⟨found, fun q held => List.mem_cons_of_mem p (within q held), ?_, ?_⟩
      · simpa [sought] using left
      · simpa [← first, sought] using right

theorem Moved.exists_partner? {p : Hook × Hook} (moved : Moved (p :: rest)) :
    ∃ found : Option (Hook × Hook), (∀ q, found = some q → q ∈ rest) ∧
      p.1.partner? (rest.map Prod.fst) = found.map Prod.fst ∧
      p.2.partner? (rest.map Prod.snd) = found.map Prod.snd := by
  have later := moved.sublist (List.subset_cons_self p rest)
  rw [partner?, partner?, moved.origin List.mem_cons_self]
  split
  · apply exists_find?_pairs
    intro q within
    rw [later.origin within,
      moved.statements p List.mem_cons_self q (List.mem_cons_of_mem p within)]
  · exact ⟨none, by simp, rfl, rfl⟩

end Hook

namespace Facts

variable {f g : Facts}

theorem Moved.zip (moved : f.Moved g) :
    Hook.Moved (f.hooks.zip g.hooks) ∧ (f.hooks.zip g.hooks).map Prod.fst = f.hooks ∧
      (f.hooks.zip g.hooks).map Prod.snd = g.hooks := by
  have hooks : f.hooks.map Hook.unplaced = g.hooks.map Hook.unplaced :=
    congrArg Facts.hooks moved.same
  have lengths : f.hooks.length = g.hooks.length := by
    simpa using congrArg List.length hooks
  refine ⟨⟨?_, moved.statements⟩, List.map_fst_zip lengths.le, List.map_snd_zip lengths.ge⟩
  intro p within
  obtain ⟨index, short, rfl⟩ := List.mem_iff_getElem.mp within
  rw [List.length_zip] at short
  have own := List.getElem_of_eq hooks (by simp; omega : index < _)
  simpa using own

theorem Moved.symm (moved : f.Moved g) : g.Moved f := by
  refine ⟨moved.same.symm, ?_⟩
  have swapped {p : Hook × Hook} (within : p ∈ g.hooks.zip f.hooks) :
      p.swap ∈ f.hooks.zip g.hooks := by
    rw [← List.zip_swap]
    exact List.mem_map_of_mem within
  intro p left q right
  exact (moved.statements _ (swapped left) _ (swapped right)).symm

end Facts

namespace Graph

theorem StateRow.plan_moved (called : List String) {pairs : List (Hook × Hook)}
    (moved : Hook.Moved pairs) (taken : List String) :
    plan called (pairs.map Prod.fst) taken = plan called (pairs.map Prod.snd) taken := by
  induction pairs generalizing taken with
  | nil => rfl
  | cons p rest ih =>
    have later := moved.sublist (List.subset_cons_self p rest)
    obtain ⟨found, within, left, right⟩ := moved.exists_partner?
    rw [List.map_cons, List.map_cons, plan, plan, left, right, moved.id List.mem_cons_self,
      moved.name List.mem_cons_self]
    cases found with
    | none => simp only [Option.map_none, ih later]
    | some q => simp only [Option.map_some, later.id (within q rfl), ih later]

namespace Layout

variable {f g : Facts}

theorem pairStates_moved (moved : f.Moved g) (l : Layout) : l.pairStates f = l.pairStates g := by
  obtain ⟨hooks, before, after⟩ := moved.zip
  have called : f.unplaced.calledNames = g.unplaced.calledNames := by rw [moved.same]
  change f.calledNames = g.calledNames at called
  let known (h : Hook) : Bool := (l.stateNode? h.id).isSome
  have part : (f.hooks.zip g.hooks).filter (known ∘ Prod.fst) ⊆ f.hooks.zip g.hooks :=
    List.filter_sublist.subset
  have same : (f.hooks.zip g.hooks).filter (known ∘ Prod.fst) =
      (f.hooks.zip g.hooks).filter (known ∘ Prod.snd) := by
    apply List.filter_congr
    intro p within
    exact congrArg (fun id => (l.stateNode? id).isSome) (hooks.id within)
  have left : ((f.hooks.zip g.hooks).filter (known ∘ Prod.fst)).map Prod.fst =
      f.hooks.filter known := by
    rw [← List.filter_map, before]
  have right : ((f.hooks.zip g.hooks).filter (known ∘ Prod.fst)).map Prod.snd =
      g.hooks.filter known := by
    rw [same, ← List.filter_map, after]
  -- Both sides drop the same pairs, since only ids tell which hooks have a node.
  have rows : StateRow.plan f.calledNames (f.hooks.filter known) [] =
      StateRow.plan g.calledNames (g.hooks.filter known) [] := by
    rw [← left, ← right, called]
    exact StateRow.plan_moved _ (hooks.sublist part) []
  unfold pairStates
  dsimp only
  rw [rows]

theorem unmoved_unplaced (f : Facts) : unmoved f.unplaced = (unmoved f).unplaced := by
  rw [unmoved, Builder.unplaced_ofFacts]
  exact fit_unplaced (Builder.ofFacts f).spread

theorem eq_of_unplaced {l m : Layout} (same : l.unplaced = m.unplaced) :
    l.nodes.map Node.unplaced = m.nodes.map Node.unplaced ∧ l.edges = m.edges ∧
      l.width = m.width ∧ l.height = m.height ∧ l.columns = m.columns := by
  cases l
  cases m
  simp only [unplaced, Layout.mk.injEq] at same
  grind

theorem ofFacts_moved (moved : f.Moved g) : (ofFacts f).unplaced = (ofFacts g).unplaced := by
  have finished (k : Facts) : (ofFacts k).unplaced = (unmoved k.unplaced).pack.pairStates k := by
    rw [unmoved_unplaced, pack_unplaced, pairStates_unplaced, unmoved, ofFacts]
  rw [finished, finished, moved.same, pairStates_moved moved]

theorem exists_deep_moved (moved : f.Moved g) {e : Element} (within : e ∈ f.elements) :
    ∃ d ∈ g.elements, d.depth = e.depth := by
  have elements : f.unplaced.elements = g.unplaced.elements := by rw [moved.same]
  have held : e.unplaced ∈ g.unplaced.elements := by
    rw [← elements]
    exact List.mem_map_of_mem within
  obtain ⟨d, inside, same⟩ := List.mem_map.mp held
  have depth : d.unplaced.depth = e.unplaced.depth := by rw [same]
  exact ⟨d, inside, depth⟩

/-- A component whose code is moved keeps its graph: the same nodes but for the places that the nodes
of side effects show, the same edges and the same canvas. -/
theorem build_moved (moved : f.Moved g) :
    (build (some f) = .error .tooLarge ∧ build (some g) = .error .tooLarge) ∨
    ∃ l m, build (some f) = .ok l ∧ build (some g) = .ok m ∧
      l.nodes.map Node.unplaced = m.nodes.map Node.unplaced ∧ l.edges = m.edges ∧
      l.width = m.width ∧ l.height = m.height ∧ l.columns = m.columns := by
  have same := eq_of_unplaced (ofFacts_moved moved)
  rcases build_cases f with ⟨far, e, within, deep⟩ | near
  · left
    obtain ⟨d, inside, depth⟩ := exists_deep_moved moved within
    rcases build_cases g with ⟨far', -⟩ | near'
    · exact ⟨far, far'⟩
    · have reached := isFinite_of_build near' d inside
      rw [depth, deep] at reached
      cases reached
  · right
    have near' : build (some g) = .ok (ofFacts g) := by
      apply build_eq_ok
      intro d inside
      obtain ⟨e, within, depth⟩ := exists_deep_moved moved.symm inside
      rw [← depth]
      exact isFinite_of_build near e within
    exact ⟨ofFacts f, ofFacts g, near, near', same⟩

/-- A counter whose component starts on some line, and an effect on the line below. -/
def counterAt (line : Nat) : Facts where
  source := ""
  hooks := [
    ⟨"hook-1", "count", .localState, .component, some ⟨line, 8⟩, ⟨none, none, .array, 0⟩⟩,
    ⟨"hook-2", "setCount", .localState, .component, some ⟨line, 8⟩, ⟨none, none, .array, 1⟩⟩]
  effects := [⟨"effect-1", .effect, [⟨"count", false⟩], [], [], [], [], some ⟨line + 1, 2⟩⟩]

theorem build_counterAt :
    (counterAt 2).Moved (counterAt 40) ∧
      ∃ l m, build (some (counterAt 2)) = .ok l ∧ build (some (counterAt 40)) = .ok m ∧
        l.nodes.map Node.unplaced = m.nodes.map Node.unplaced ∧ l.edges = m.edges ∧
        l.width = m.width ∧ l.height = m.height ∧ l.columns = m.columns := by
  have moved : (counterAt 2).Moved (counterAt 40) := ⟨rfl, by decide⟩
  refine ⟨moved, (build_moved moved).resolve_left ?_⟩
  have built : build (some (counterAt 2)) = .ok (ofFacts (counterAt 2)) := build_eq_ok nofun
  rintro ⟨far, -⟩
  rw [built] at far
  cases far

end Layout

end Graph

end RenderFlow
