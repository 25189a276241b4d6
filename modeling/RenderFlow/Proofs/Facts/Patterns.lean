import Mathlib.Data.List.Chain
import RenderFlow.Proofs.Facts.Agreement
import RenderFlow.Proofs.Graph.Mates

/-!
The hooks of an analysis are apart. Commas stand between the names of an array pattern, so these have
different places in it, and the hooks of different declarators are made by different calls. Main
statement: `Facts.apart_of_analyze`.
-/
namespace RenderFlow

open scoped List

namespace Tree

/-- Between two names of an array pattern stands a comma. -/
def SeparatesNames (pattern : SyntaxNode) : Prop :=
  ((pattern.children.map kind).filter (["identifier", ","].contains ·)).IsChain fun first next =>
    first = "," ∨ next = ","

instance (pattern : SyntaxNode) : Decidable pattern.SeparatesNames :=
  inferInstanceAs (Decidable (List.IsChain _ _))

/-- Commas separate the names of array patterns, and no two calls of plain names start at one
position. -/
structure SeparatesHooks (root : SyntaxNode) : Prop where
  names : ∀ t ∈ root.parts, t.kind = "array_pattern" → t.SeparatesNames
  calls : ((root.parts.filter (·.plainCallee?.isSome)).map position).Nodup

instance (root : SyntaxNode) : Decidable root.SeparatesHooks :=
  decidable_of_iff ((∀ t ∈ root.parts, t.kind = "array_pattern" → t.SeparatesNames) ∧
      ((root.parts.filter (·.plainCallee?.isSome)).map position).Nodup)
    ⟨fun parts => ⟨parts.1, parts.2⟩, fun separate => ⟨separate.names, separate.calls⟩⟩

theorem le_of_mem_arrayBindings {ts : List SyntaxNode} {index : Nat} {b : Binding}
    (bound : b ∈ arrayBindings index ts) : index ≤ b.index := by
  fun_induction arrayBindings index ts with
  | case1 => cases bound
  | case2 index t rest _ ih => exact Nat.le_of_succ_le (ih bound)
  | case3 index t rest _ _ ih =>
    rcases List.mem_cons.mp bound with rfl | later
    · exact Nat.le_refl index
    · exact ih later
  | case4 index t rest _ _ ih => exact ih bound

theorem lt_of_mem_arrayBindings {ts : List SyntaxNode} {index : Nat} {b : Binding}
    (comma : ∀ k ∈ ((ts.map kind).filter (["identifier", ","].contains ·)).head?, k = ",")
    (bound : b ∈ arrayBindings index ts) : index < b.index := by
  fun_induction arrayBindings index ts with
  | case1 => cases bound
  | case2 index t rest _ _ => exact le_of_mem_arrayBindings bound
  | case3 index t rest other name _ =>
    have own : t.kind = "," := by
      apply comma
      simp only [beq_iff_eq] at name
      simp [name]
    simp [own] at other
  | case4 index t rest other name ih =>
    refine ih ?_ bound
    simp only [beq_iff_eq] at other name
    simpa [other, name] using comma

theorem pairwise_arrayBindings {ts : List SyntaxNode} (index : Nat)
    (chain : ((ts.map kind).filter (["identifier", ","].contains ·)).IsChain fun first next =>
      first = "," ∨ next = ",") :
    (arrayBindings index ts).Pairwise fun b c => b.index < c.index := by
  fun_induction arrayBindings index ts with
  | case1 => exact .nil
  | case2 index t rest comma ih =>
    simp only [beq_iff_eq] at comma
    simp only [List.map_cons, comma] at chain
    exact ih chain.tail
  | case3 index t rest other name ih =>
    simp only [beq_iff_eq] at name
    simp only [List.map_cons, name] at chain
    have parts := List.isChain_cons.mp chain
    refine .cons (fun b later => lt_of_mem_arrayBindings ?_ later) (ih parts.2)
    intro k first
    simpa using parts.1 k first
  | case4 index t rest other name ih =>
    simp only [beq_iff_eq] at other name
    exact ih (by simpa [other, name] using chain)

theorem pairwise_bindings {pattern : SyntaxNode}
    (names : pattern.kind = "array_pattern" → pattern.SeparatesNames) :
    pattern.bindings.Pairwise fun b c => b.pattern = .array → b.index ≠ c.index := by
  unfold bindings
  split
  · exact List.pairwise_singleton _ _
  · rename_i array
    refine (pairwise_arrayBindings 0 (names array)).imp ?_
    intro b c less _
    exact Nat.ne_of_lt less
  · rw [List.pairwise_map]
    exact List.pairwise_of_forall fun _ _ other => nomatch other
  · exact .nil

def hookCalls (t : SyntaxNode) : List SyntaxNode :=
  (t.hookCall?.map Prod.fst).toList

theorem hookCalls_subperm (t : SyntaxNode) :
    t.parts.flatMap hookCalls <+~ t.parts.filter (·.plainCallee?.isSome) := by
  have own (s : SyntaxNode) : s.hookCalls <+ s.children.filter (·.plainCallee?.isSome) := by
    unfold hookCalls
    cases called : s.hookCall? with
    | none => exact List.nil_sublist _
    | some found =>
      obtain ⟨given, plain⟩ := hookCall?_eq_some_iff.mp called
      refine List.singleton_sublist.mpr (List.mem_filter.mpr ⟨mem_children_of_child? given, ?_⟩)
      rw [plain]
      rfl
  -- No node is the child of two others, so no call is taken twice.
  have below : t.parts.flatMap children <+~ t.parts :=
    (List.sublist_cons_self t _).subperm.trans (parts_perm t).symm.subperm
  have children := List.Sublist.flatMap_right t.parts fun s _ => own s
  rw [← List.filter_flatMap] at children
  exact children.subperm.trans (below.filter _)

end Tree

namespace Hook

def Collides (a b : Hook) : Prop :=
  (a.origin.pattern = .array ∧ b.origin.pattern = .array) ∧ a.origin.index = b.origin.index ∧
    a.sameStatement b

theorem Apart.of_pairwise {hooks : List Hook}
    (apart : hooks.Pairwise fun a b => ¬ a.Collides b) : Apart hooks := by
  have symm : Std.Symm fun a b : Hook => ¬ a.Collides b := by
    refine ⟨fun a b apart collides => apart ?_⟩
    obtain ⟨array, index, together⟩ := collides
    exact ⟨array.symm, index.symm, sameStatement_comm.mp together⟩
  intro a left b right array array' index together
  by_contra different
  exact apart.forall left right different ⟨⟨array, array'⟩, index, together⟩

end Hook

namespace Declarations

variable {root body : SyntaxNode}

theorem pairwise_hooksAt (imports : Imports) {p : Placed}
    (names : ∀ pattern ∈ p.node.children, pattern.kind = "array_pattern" → pattern.SeparatesNames) :
    (hooksAt imports p).Pairwise fun draft later => ∀ m n, ¬ (draft m).Collides (later n) := by
  unfold hooksAt
  split
  · split
    · cases named : p.node.child? "name" with
      | none => exact .nil
      | some pattern =>
        rw [Option.map_some, Option.getD_some, List.pairwise_map]
        have own := names pattern (Tree.mem_children_of_child? named)
        refine (Tree.pairwise_bindings own).imp ?_
        rintro b c other m n ⟨⟨array, -⟩, index, -⟩
        exact other array (Int.ofNat.inj index)
    · exact .nil
  · exact .nil

theorem nodup_hookCalls (separate : root.SeparatesHooks) (inside : body ∈ root.parts) :
    ((body.walk.flatMap Tree.hookCalls).map Tree.position).Nodup := by
  have part := body.walk_sublist_parts.trans (Tree.parts_sublist root inside)
  have calls := (part.flatMap Tree.hookCalls).subperm.trans root.hookCalls_subperm
  obtain ⟨others, same, part⟩ := calls
  exact (same.map Tree.position).nodup_iff.mp (separate.calls.sublist (part.map Tree.position))

theorem apart_hooks (separate : root.SeparatesHooks) (inside : body ∈ root.parts)
    (imports : Imports) (globalNames : List String) (parent : Option SyntaxNode) :
    Hook.Apart (collect imports globalNames ⟨body, parent⟩).hooks := by
  rw [hooks_collect]
  apply Hook.Apart.of_pairwise
  apply pairwise_numbered
  rw [List.pairwise_flatMap]
  constructor
  · intro p walked
    apply pairwise_hooksAt
    intro pattern child
    have part := Tree.parts_trans root inside (body.walk_subset_parts (Placed.node_mem_walk walked))
    exact separate.names pattern (Tree.parts_trans root part (Tree.mem_parts_of_child child))
  · have calls := nodup_hookCalls separate inside
    rw [List.map_flatMap, ← Tree.map_node_walk ⟨body, parent⟩, List.flatMap_map,
      List.nodup_flatMap] at calls
    refine calls.2.imp ?_
    intro p q apart draft drafted later drafted' m n collides
    obtain ⟨-, call, callee, -, called, -, b, -, rfl⟩ := exists_of_mem_hooksAt drafted
    obtain ⟨-, call', callee', -, called', -, b', -, rfl⟩ := exists_of_mem_hooksAt drafted'
    obtain ⟨place, here, there⟩ := Hook.sameStatement_iff.mp collides.2.2
    have same : call.position = call'.position := Option.some.inj (here.trans there.symm)
    apply apart (a := call.position)
    · simp [Tree.hookCalls, called]
    · simp [Tree.hookCalls, called', same]

end Declarations

namespace Facts

/-- No two hooks of an analysis have one place in one array pattern. -/
theorem apart_of_analyze {parser : SyntaxParser} {source : RawText} {fileName : Option RawText}
    {facts : Facts} (separate : (parsed parser source fileName).SeparatesHooks)
    (analyzed : analyze parser source fileName = .ok facts) : Hook.Apart facts.hooks := by
  have none_apart : Hook.Apart [] := by
    intro a listed
    cases listed
  rcases analyze_eq_ok_cases analyzed with rfl | ⟨e, rfl⟩
  · rcases ofTree_cases source.clean (fileName.map RawText.clean) (parsed parser source fileName)
      with ⟨name, component, body, found, same⟩ | same
    · rw [same]
      exact Declarations.apart_hooks separate (Tree.mem_parts_of_componentBody? found).2 _ _ _
    · rw [same]
      exact none_apart
  · exact none_apart

end Facts

end RenderFlow
