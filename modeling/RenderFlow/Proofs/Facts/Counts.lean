import Mathlib.Algebra.BigOperators.Group.List.Basic
import Mathlib.Algebra.Order.BigOperators.Group.List
import Mathlib.Algebra.Order.Group.Nat
import Mathlib.Data.List.Perm.Subperm
import RenderFlow.Proofs.Facts.Origin
import RenderFlow.Proofs.Graph.Columns
import RenderFlow.Proofs.Markup.Nesting
import RenderFlow.Proofs.Syntax.Parts

/-!
How many records a tree can give. A declarator binds at most as many names as its pattern has
children, so no node is counted twice for names, and the network calls of nested effects are the same
names. Main statement: `Facts.recordCount_ofTree_le`.
-/
namespace RenderFlow

namespace Tree

def grandchildren (t : SyntaxNode) : Nat :=
  (t.children.map (·.children.length)).sum

theorem length_children_le_grandchildren {t c : SyntaxNode} (child : c ∈ t.children) :
    c.children.length ≤ t.grandchildren :=
  List.le_sum_of_mem (List.mem_map_of_mem child)

/-- What a node may add to the records. -/
def cost (t : SyntaxNode) : Nat :=
  t.grandchildren + 1

def walkCost (t : SyntaxNode) : Nat :=
  (t.walk.map cost).sum

theorem walkCost_eq (t : SyntaxNode) :
    t.walkCost = t.cost + (t.visibleChildren.map walkCost).sum := by
  rw [walkCost, walk_eq, List.map_cons, List.sum_cons, List.map_flatMap, List.flatMap_def,
    List.sum_flatten, List.map_map]
  rfl

theorem sum_walkCost_le (ts : List SyntaxNode)
    (bound : ∀ c ∈ ts.filter isVisible, c.walkCost + c.children.length + 1 ≤ 2 * c.size) :
    (ts.map (·.children.length)).sum + ((ts.filter isVisible).map walkCost).sum + ts.length ≤
      2 * sizeAll ts := by
  induction ts with
  | nil => simp [sizeAll]
  | cons c rest later =>
    have short := length_children_lt c
    by_cases visible : c.isVisible
    · rw [List.filter_cons_of_pos visible] at bound ⊢
      have first := bound c List.mem_cons_self
      have others := later fun d within => bound d (List.mem_cons_of_mem c within)
      simp only [List.map_cons, List.sum_cons, List.length_cons, sizeAll]
      omega
    · rw [List.filter_cons_of_neg visible] at bound ⊢
      have others := later bound
      simp only [List.map_cons, List.sum_cons, List.length_cons, sizeAll]
      omega

theorem walkCost_le (t : SyntaxNode) : t.walkCost + t.children.length + 1 ≤ 2 * t.size := by
  -- A node's children are counted on the left too: they pay for its grandchildren one level up.
  induction t using visibleInduction with
  | step t ih =>
    have below : t.grandchildren + (t.visibleChildren.map walkCost).sum + t.children.length ≤
        2 * sizeAll t.children := sum_walkCost_le t.children ih
    rw [walkCost_eq, cost, size_eq]
    omega

theorem length_arrayBindings_le (index : Nat) (ts : List SyntaxNode) :
    (arrayBindings index ts).length ≤ ts.length := by
  fun_induction arrayBindings index ts with
  | case1 => simp
  | case2 index t rest comma ih => simp only [List.length_cons]; omega
  | case3 index t rest _ name ih => simp only [List.length_cons]; omega
  | case4 index t rest _ other ih => simp only [List.length_cons]; omega

theorem length_bindings_le (pattern : SyntaxNode) :
    pattern.bindings.length ≤ pattern.children.length + 1 := by
  unfold bindings
  split
  · simp
  · have := length_arrayBindings_le 0 pattern.children
    omega
  · have targets := List.length_filterMap_le propertyTarget? pattern.visibleChildren
    have visible := List.length_filter_le isVisible pattern.children
    rw [List.length_map]
    change pattern.visibleChildren.length ≤ _ at visible
    omega
  · simp

theorem sizeAll_flatMap_markup_le (ts : List SyntaxNode)
    (bound : ∀ c ∈ ts, sizeAll c.markup ≤ c.size) : sizeAll (ts.flatMap markup) ≤ sizeAll ts := by
  induction ts with
  | nil => simp [sizeAll]
  | cons c rest later =>
    obtain ⟨first, others⟩ := List.forall_mem_cons.mp bound
    have := later others
    rw [List.flatMap_cons, sizeAll_append, sizeAll]
    omega

theorem length_markup_le (t : SyntaxNode) : sizeAll t.markup ≤ t.size := by
  induction t using visibleInduction with
  | step t ih =>
    have below := sizeAll_flatMap_markup_le t.visibleChildren ih
    have visible := sizeAll_filter_le isVisible t.children
    rw [markup_eq, markupOver, size_eq]
    change sizeAll t.visibleChildren ≤ _ at visible
    split
    · simp only [sizeAll, size]
      omega
    · omega

theorem length_elements_le (t : SyntaxNode) : t.elements.length ≤ t.size := by
  have count := length_recordsAll none 0 1 t.markup
  have bound := length_markup_le t
  rw [elements_eq, flatten, count]
  exact bound

end Tree

namespace Declarations

def count (d : Declarations) : Nat :=
  d.hooks.length + d.effects.length + d.callbacks.length + d.locals.length

theorem count_foldl_addHook (callee : String) (source : Option String) (position : Position)
    (bindings : List Binding) (d : Declarations) :
    (bindings.foldl (addHook callee source position) d).count = d.count + bindings.length := by
  induction bindings generalizing d with
  | nil => rfl
  | cons b rest ih =>
    rw [List.foldl_cons, ih]
    simp only [count, addHook, List.length_append, List.length_cons, List.length_nil]
    omega

theorem count_visitDeclarator_le (imports : Imports) (d : Declarations) (t : SyntaxNode) :
    (d.visitDeclarator imports t).count ≤ d.count + t.cost := by
  unfold visitDeclarator
  dsimp only
  split
  · omega
  · split
    · rw [count_foldl_addHook]
      cases named : t.child? "name" with
      | none => simp
      | some pattern =>
        have bound := pattern.length_bindings_le
        have charged := Tree.length_children_le_grandchildren (Tree.mem_children_of_child? named)
        simp only [Option.map_some, Option.getD_some, Tree.cost]
        omega
    · cases t.plainName? with
      | none => simp
      | some name =>
        simp only [Option.toList_some, List.foldl_cons, List.foldl_nil, count, addVariable,
          List.length_append, List.length_cons, List.length_nil, Tree.cost]
        omega

theorem count_visitCall_le (imports : Imports) (d : Declarations) (call : Placed) :
    (d.visitCall imports call).count ≤ d.count + call.node.cost := by
  unfold visitCall
  split
  · omega
  · dsimp only
    split <;>
      simp only [count, addEffect, addCallback, List.length_append, List.length_cons,
        List.length_nil, Tree.cost] <;> omega

theorem count_visit_le (imports : Imports) (d : Declarations) (p : Placed) :
    (d.visit imports p).count ≤ d.count + p.node.cost := by
  unfold visit
  split
  · exact count_visitDeclarator_le imports d p.node
  · exact count_visitCall_le imports d p
  · omega

theorem count_foldl_visit_le (imports : Imports) (ps : List Placed) (d : Declarations) :
    (ps.foldl (visit imports) d).count ≤ d.count + (ps.map (·.node.cost)).sum := by
  induction ps generalizing d with
  | nil => simp
  | cons p rest ih =>
    have first := count_visit_le imports d p
    have later := ih (d.visit imports p)
    rw [List.foldl_cons, List.map_cons, List.sum_cons]
    omega

theorem count_collect_le (imports : Imports) (globalNames : List String) (body : Placed) :
    (collect imports globalNames body).count ≤ 2 * body.node.size := by
  have walked := count_foldl_visit_le imports body.walk { globalNames := distinct globalNames }
  have same : (body.walk.map (·.node.cost)).sum = body.node.walkCost := by
    rw [Tree.walkCost, ← Tree.map_node_walk, List.map_map]
    rfl
  have bound := body.node.walkCost_le
  have start : count { globalNames := distinct globalNames } = 0 := rfl
  rw [same, start] at walked
  change (collect imports globalNames body).count ≤ _ at walked
  omega

end Declarations

namespace Tree

def networkCalls (t : SyntaxNode) : List String :=
  t.parts.filterMap fun s => s.callee?.bind (·.externalCall?)

theorem networkCalls_subset {t s : SyntaxNode} (within : s ∈ t.parts) :
    s.networkCalls ⊆ t.networkCalls :=
  List.filterMap_subset _ (parts_trans t within)

theorem length_networkCalls_le (t : SyntaxNode) : t.networkCalls.length ≤ t.size := by
  rw [← length_parts]
  exact List.length_filterMap_le _ _

theorem mem_parts_of_callArguments {t a : SyntaxNode} (argument : a ∈ t.callArguments) :
    a ∈ t.parts := by
  unfold callArguments at argument
  split at argument
  · rename_i list found
    split at argument
    · have inside := mem_parts_of_child (List.mem_filter.mp argument).1
      exact parts_subset_of_child (mem_children_of_child? found) inside
    · cases argument
  · cases argument

end Tree

theorem BodyScan.externalCalls_subset (trackRefs : Bool) (function : SyntaxNode) :
    (ofFunction trackRefs (some function)).externalCalls ⊆ function.networkCalls := by
  intro name made
  rw [ofFunction, ofWalk, mem_distinct] at made
  obtain ⟨p, scanned, called⟩ := List.mem_filterMap.mp made
  refine List.mem_filterMap.mpr ⟨p.node, ?_, called⟩
  rw [Placed.scannedNodes, Placed.bodyWalk] at scanned
  split at scanned
  · split at scanned
    · rename_i body found
      have walked : p.node ∈ body.walk := by
        rw [← Tree.map_node_walk ⟨body, some function⟩]
        exact List.mem_map_of_mem scanned
      exact Tree.parts_subset_of_child (Tree.mem_children_of_child? found)
        (body.walk_subset_parts walked)
    · cases scanned
  · cases scanned

theorem BodyScan.externalCalls_argument_subset (trackRefs : Bool) (call : SyntaxNode) :
    (ofFunction trackRefs call.callArguments[0]?).externalCalls ⊆ call.networkCalls := by
  cases first : call.callArguments[0]? with
  | none =>
    intro name made
    rw [ofFunction, ofWalk, mem_distinct] at made
    cases made
  | some function =>
    have argument := Tree.mem_parts_of_callArguments (List.mem_of_getElem? first)
    exact List.Subset.trans (externalCalls_subset trackRefs function)
      (Tree.networkCalls_subset argument)

namespace Declarations

structure CallsAmong (names : List String) (d : Declarations) : Prop where
  effects : ∀ e ∈ d.effects, e.externalCalls ⊆ names
  callbacks : ∀ c ∈ d.callbacks, c.externalCalls ⊆ names

variable {names : List String} {d : Declarations}

theorem CallsAmong.foldl_addHook (among : d.CallsAmong names) (callee : String)
    (source : Option String) (position : Position) (bindings : List Binding) :
    (bindings.foldl (addHook callee source position) d).CallsAmong names := by
  induction bindings generalizing d with
  | nil => exact among
  | cons b rest ih => exact ih ⟨among.effects, among.callbacks⟩

theorem CallsAmong.visitDeclarator (among : d.CallsAmong names) (imports : Imports)
    (t : SyntaxNode) : (d.visitDeclarator imports t).CallsAmong names := by
  unfold Declarations.visitDeclarator
  dsimp only
  split
  · exact among
  · split
    · exact among.foldl_addHook _ _ _ _
    · cases t.plainName? with
      | none => exact among
      | some name => exact ⟨among.effects, among.callbacks⟩

theorem CallsAmong.addEffect (among : d.CallsAmong names) (kind : EffectKind) {call : SyntaxNode}
    (within : call.networkCalls ⊆ names) : (d.addEffect kind call).CallsAmong names := by
  refine ⟨?_, among.callbacks⟩
  intro e listed
  rcases List.mem_append.mp listed with old | new
  · exact among.effects e old
  · rw [List.mem_singleton.mp new]
    exact List.Subset.trans (BodyScan.externalCalls_argument_subset true call) within

theorem CallsAmong.addCallback (among : d.CallsAmong names) {call : Placed}
    (within : call.node.networkCalls ⊆ names) : (d.addCallback call).CallsAmong names := by
  refine ⟨among.effects, ?_⟩
  intro c listed
  rcases List.mem_append.mp listed with old | new
  · exact among.callbacks c old
  · rw [List.mem_singleton.mp new]
    exact List.Subset.trans (BodyScan.externalCalls_argument_subset false call.node) within

theorem CallsAmong.visit (among : d.CallsAmong names) (imports : Imports) {p : Placed}
    (within : p.node.networkCalls ⊆ names) : (d.visit imports p).CallsAmong names := by
  unfold Declarations.visit
  split
  · exact among.visitDeclarator imports p.node
  · unfold visitCall
    split
    · exact among
    · rename_i callee _
      have named : CallsAmong names { d with calledNames := addNew d.calledNames callee.text } :=
        ⟨among.effects, among.callbacks⟩
      dsimp only
      split
      · exact named.addEffect .effect within
      · exact named.addEffect .layoutEffect within
      · exact named.addCallback within
      · exact named
  · exact among

theorem CallsAmong.foldl_visit (among : d.CallsAmong names) (imports : Imports)
    {ps : List Placed} (within : ∀ p ∈ ps, p.node.networkCalls ⊆ names) :
    (ps.foldl (Declarations.visit imports) d).CallsAmong names := by
  induction ps generalizing d with
  | nil => exact among
  | cons p rest ih =>
    obtain ⟨first, others⟩ := List.forall_mem_cons.mp within
    exact ih (among.visit imports first) others

theorem callsAmong_collect (imports : Imports) (globalNames : List String) (body : Placed) :
    (collect imports globalNames body).CallsAmong body.node.networkCalls := by
  refine CallsAmong.foldl_visit ⟨by simp, by simp⟩ imports ?_
  intro p walked
  refine Tree.networkCalls_subset (body.node.walk_subset_parts ?_)
  rw [← Tree.map_node_walk]
  exact List.mem_map_of_mem walked

end Declarations

namespace Tree

theorem mem_parts_of_componentBody? {root component body : SyntaxNode} {name : String}
    (found : root.componentBody? name = some (component, body)) :
    component ∈ root.parts ∧ body ∈ root.parts := by
  obtain ⟨c, declared, rest⟩ := Option.bind_eq_some_iff.mp found
  obtain ⟨b, held, same⟩ := Option.map_eq_some_iff.mp rest
  obtain ⟨rfl, rfl⟩ := Prod.mk.inj same
  obtain ⟨t, walked, declares⟩ := List.exists_of_findSome?_eq_some declared
  have inside := root.walk_subset_parts walked
  have part : c ∈ root.parts := by
    unfold declaredFunction? at declares
    split at declares
    · unfold functionOf? at declares
      split at declares
      · have child := mem_children_of_child? (Option.filter_eq_some_iff.mp declares).1
        exact parts_trans root inside (mem_parts_of_child child)
      · rw [← Option.some.inj declares]
        exact inside
    · cases declares
  exact ⟨part, parts_trans root part (mem_parts_of_child (mem_children_of_child? held))⟩

theorem length_componentProps_le (component : SyntaxNode) :
    component.componentProps.length ≤ component.size := by
  rw [componentProps, List.length_map]
  unfold propBindings
  dsimp only
  split
  · rename_i pattern found
    obtain ⟨first, taken, is_pattern⟩ := Option.bind_eq_some_iff.mp (Option.filter_eq_some_iff.mp found).1
    obtain ⟨list, held, heads⟩ := Option.bind_eq_some_iff.mp taken
    have visible : first ∈ list.visibleChildren := List.mem_of_mem_head? heads
    have inside : first ∈ component.parts :=
      parts_subset_of_child (mem_children_of_child? held)
        (mem_parts_of_child (List.mem_filter.mp visible).1)
    have part : pattern ∈ component.parts := by
      unfold parameterPattern? at is_pattern
      split at is_pattern
      · exact parts_trans component inside (mem_parts_of_child (mem_children_of_child? is_pattern))
      · rw [← Option.some.inj is_pattern]
        exact inside
    have bound := pattern.length_bindings_le
    have short := pattern.length_children_lt
    have small := size_le_of_mem_parts part
    omega
  · simp

end Tree

namespace Facts

theorem recordCount_addComponent_le (facts : Facts) (imports : Imports)
    (component body : SyntaxNode) :
    (facts.addComponent imports component body).recordCount ≤ component.size + 4 * body.size := by
  have records := Declarations.count_collect_le imports [] ⟨body, some component⟩
  have calls := Declarations.callsAmong_collect imports [] ⟨body, some component⟩
  have elements := body.length_elements_le
  have props := component.length_componentProps_le
  have external : (facts.addComponent imports component body).externalCalls.length ≤ body.size := by
    -- Nested effects scan one call again and again, so the names are counted and not the scans.
    have among : (facts.addComponent imports component body).externalCalls ⊆ body.networkCalls := by
      intro name within
      rw [externalCalls, mem_distinct, List.mem_append] at within
      rcases within with effect | callback
      · obtain ⟨e, listed, made⟩ := List.mem_flatMap.mp effect
        exact calls.effects e listed made
      · obtain ⟨c, listed, made⟩ := List.mem_flatMap.mp callback
        exact calls.callbacks c listed made
    have short := (List.subperm_of_subset (nodup_distinct _) among).length_le
    exact short.trans body.length_networkCalls_le
  simp only [Declarations.count] at records
  simp only [recordCount]
  simp only [addComponent] at external ⊢
  omega

/-- A tree gives at most five times as many records as it has nodes. -/
theorem recordCount_ofTree_le (source : String) (fileName : Option String) (root : SyntaxNode) :
    (ofTree source fileName root).recordCount ≤ 5 * root.size := by
  unfold ofTree
  dsimp only
  split
  · rename_i component body found
    obtain ⟨name, -, declared⟩ := Option.bind_eq_some_iff.mp found
    obtain ⟨left, right⟩ := Tree.mem_parts_of_componentBody? declared
    have first := Tree.size_le_of_mem_parts left
    have second := Tree.size_le_of_mem_parts right
    refine (recordCount_addComponent_le _ _ component body).trans ?_
    omega
  · simp [recordCount, externalCalls, distinct]

end Facts

end RenderFlow
