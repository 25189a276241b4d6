import RenderFlow.Graph.Inventory
import RenderFlow.Proofs.Graph.Updates

/-!
What a builder holds after nodes were asked for. Of nodes with one id only the first is added, so
`addNodes_eq` tells the whole builder from the list that was asked for.
-/
namespace RenderFlow.Graph

/-- The nodes whose ids are neither held nor carried by an earlier node. -/
def newcomers (held : List String) : List Node → List Node
  | [] => []
  | n :: rest =>
    if n.id ∈ held then newcomers held rest else n :: newcomers (held ++ [n.id]) rest

theorem mem_of_mem_newcomers {held : List String} {nodes : List Node} {n : Node}
    (new : n ∈ newcomers held nodes) : n ∈ nodes ∧ n.id ∉ held := by
  fun_induction newcomers held nodes with
  | case1 => cases new
  | case2 held m rest old ih =>
    obtain ⟨later, apart⟩ := ih new
    exact ⟨List.mem_cons_of_mem m later, apart⟩
  | case3 held m rest fresh ih =>
    rcases List.mem_cons.mp new with rfl | new
    · exact ⟨List.mem_cons_self, fresh⟩
    · obtain ⟨later, apart⟩ := ih new
      exact ⟨List.mem_cons_of_mem m later, fun old => apart (List.mem_append_left _ old)⟩

theorem nodup_append_newcomers {held : List String} (distinct : held.Nodup) (nodes : List Node) :
    (held ++ nodeIds (newcomers held nodes)).Nodup := by
  fun_induction newcomers held nodes with
  | case1 held => simpa [nodeIds] using distinct
  | case2 held m rest old ih => exact ih distinct
  | case3 held m rest fresh ih =>
    have longer : (held ++ [m.id]).Nodup := by
      refine List.nodup_append'.mpr ⟨distinct, List.nodup_singleton m.id, ?_⟩
      intro id old single
      rw [List.mem_singleton.mp single] at old
      exact fresh old
    simpa [nodeIds] using ih longer

theorem mem_nodeIds_newcomers {held : List String} {nodes : List Node} {id : String} :
    id ∈ held ++ nodeIds (newcomers held nodes) ↔ id ∈ held ∨ id ∈ nodeIds nodes := by
  fun_induction newcomers held nodes with
  | case1 held => simp [nodeIds]
  | case2 held m rest old ih =>
    rw [ih, nodeIds, nodeIds, List.map_cons, List.mem_cons]
    constructor
    · rintro (known | later)
      · exact .inl known
      · exact .inr (.inr later)
    · rintro (known | rfl | later)
      · exact .inl known
      · exact .inl old
      · exact .inr later
  | case3 held m rest fresh ih =>
    have split : held ++ nodeIds (m :: newcomers (held ++ [m.id]) rest) =
        held ++ [m.id] ++ nodeIds (newcomers (held ++ [m.id]) rest) := by
      simp [nodeIds]
    rw [split, ih]
    simp [nodeIds, or_assoc]

theorem newcomers_append (held : List String) (left right : List Node) :
    newcomers held (left ++ right) =
      newcomers held left ++ newcomers (held ++ nodeIds (newcomers held left)) right := by
  fun_induction newcomers held left with
  | case1 held => simp [nodeIds]
  | case2 held m rest old ih => rw [List.cons_append, newcomers, if_pos old, ih]
  | case3 held m rest fresh ih =>
    rw [List.cons_append, newcomers, if_neg fresh, ih]
    simp [nodeIds]

theorem nodeIds_newcomers (held : List String) (nodes : List Node) :
    nodeIds (newcomers held nodes) = (distinct (nodeIds nodes)).filter (· ∉ held) := by
  fun_induction newcomers held nodes with
  | case1 => rfl
  | case2 held m rest old ih =>
    rw [ih, nodeIds, nodeIds, List.map_cons, distinct, List.filter_cons_of_neg (by simpa using old),
      List.filter_filter]
    refine List.filter_congr fun id _ => ?_
    have other : id ∉ held → id ≠ m.id := fun new same => new (same ▸ old)
    simpa using other
  | case3 held m rest fresh ih =>
    rw [nodeIds, List.map_cons, ← nodeIds, ih, nodeIds, nodeIds, List.map_cons, distinct,
      List.filter_cons_of_pos (by simpa using fresh), List.filter_filter]
    refine congrArg (m.id :: ·) (List.filter_congr fun id _ => ?_)
    by_cases same : id = m.id <;> simp [same]

theorem find?_newcomers (held : List String) (nodes : List Node) (id : String) :
    (newcomers held nodes).find? (·.id == id) =
      if id ∈ held then none else nodes.find? (·.id == id) := by
  fun_induction newcomers held nodes with
  | case1 => simp
  | case2 held m rest old ih =>
    rw [ih]
    by_cases known : id ∈ held
    · rw [if_pos known, if_pos known]
    · have other : m.id ≠ id := fun same => known (same ▸ old)
      rw [if_neg known, if_neg known, List.find?_cons_of_neg (by simpa using other)]
  | case3 held m rest fresh ih =>
    by_cases same : m.id = id
    · rw [List.find?_cons_of_pos (by simpa using same), ← same, if_neg fresh,
        List.find?_cons_of_pos (by simp)]
    · rw [List.find?_cons_of_neg (by simpa using same), ih,
        List.find?_cons_of_neg (by simpa using same)]
      simp [Ne.symm same]

namespace Builder

theorem node?_eq_none_iff {b : Builder} {id : String} :
    b.node? id = none ↔ id ∉ nodeIds b.nodes := by
  unfold node?
  simp [List.find?_eq_none, nodeIds]

theorem mem_of_node? {b : Builder} {id : String} {n : Node} (found : b.node? id = some n) :
    n ∈ b.nodes :=
  List.mem_of_find?_eq_some found

theorem id_of_node? {b : Builder} {id : String} {n : Node} (found : b.node? id = some n) :
    n.id = id := by
  simpa using List.find?_some found

theorem hasNode_iff {b : Builder} {id : String} : b.hasNode id ↔ id ∈ nodeIds b.nodes := by
  simp [hasNode, nodeIds]

/-- The node that is given back is held, and it has the id that was asked for. -/
theorem addNode_held (b : Builder) (n : Node) :
    (b.addNode n).2 ∈ (b.addNode n).1.nodes ∧ (b.addNode n).2.id = n.id := by
  unfold addNode
  split
  · rename_i held found
    exact ⟨mem_of_node? found, id_of_node? found⟩
  · exact ⟨List.mem_append_right _ (List.mem_singleton_self n), rfl⟩

theorem addNode_eq (b : Builder) (n : Node) :
    (b.addNode n).1 = { b with nodes := b.nodes ++ newcomers (nodeIds b.nodes) [n] } := by
  unfold addNode
  split
  · rename_i held found
    have old : n.id ∈ nodeIds b.nodes :=
      mem_nodeIds.mpr ⟨held, mem_of_node? found, id_of_node? found⟩
    simp [newcomers, old]
  · rename_i unknown
    simp [newcomers, node?_eq_none_iff.mp unknown]

theorem addNodes_eq (b : Builder) (nodes : List Node) :
    (b.addNodes nodes).1 = { b with nodes := b.nodes ++ newcomers (nodeIds b.nodes) nodes } := by
  induction nodes generalizing b with
  | nil => simp [addNodes, newcomers]
  | cons n rest ih =>
    have split := newcomers_append (nodeIds b.nodes) [n] rest
    rw [List.singleton_append] at split
    change ((b.addNode n).1.addNodes rest).1 = _
    rw [ih, addNode_eq, split]
    simp only [nodeIds_append, List.append_assoc]

theorem addNodes_append (b : Builder) (left right : List Node) :
    (b.addNodes (left ++ right)).1 = ((b.addNodes left).1.addNodes right).1 := by
  rw [addNodes_eq, addNodes_eq, addNodes_eq, newcomers_append]
  simp only [nodeIds_append, List.append_assoc]

theorem prefix_addNodes (b : Builder) (nodes : List Node) :
    b.nodes <+: (b.addNodes nodes).1.nodes := by
  rw [addNodes_eq]
  exact List.prefix_append _ _

theorem distinct_addNodes {b : Builder} (distinct : (nodeIds b.nodes).Nodup) (nodes : List Node) :
    (nodeIds (b.addNodes nodes).1.nodes).Nodup := by
  rw [addNodes_eq, nodeIds_append]
  exact nodup_append_newcomers distinct nodes

theorem addNodes_held (b : Builder) (nodes : List Node) :
    (b.addNodes nodes).2 ⊆ (b.addNodes nodes).1.nodes := by
  induction nodes generalizing b with
  | nil => exact List.nil_subset _
  | cons n rest ih =>
    change (b.addNode n).2 :: ((b.addNode n).1.addNodes rest).2 ⊆
      ((b.addNode n).1.addNodes rest).1.nodes
    refine List.cons_subset.mpr ⟨?_, ih _⟩
    exact (prefix_addNodes _ rest).subset (addNode_held b n).1

theorem nodeIds_addNodes_held (b : Builder) (nodes : List Node) :
    nodeIds (b.addNodes nodes).2 = nodeIds nodes := by
  induction nodes generalizing b with
  | nil => rfl
  | cons n rest ih =>
    change (b.addNode n).2.id :: nodeIds ((b.addNode n).1.addNodes rest).2 = n.id :: nodeIds rest
    rw [ih, (addNode_held b n).2]

@[simp] theorem length_addNodes_held (b : Builder) (nodes : List Node) :
    (b.addNodes nodes).2.length = nodes.length := by
  simpa [nodeIds] using congrArg List.length (nodeIds_addNodes_held b nodes)

section Search

variable {b : Builder} {p : Node → Bool}

theorem find?_addNodes_of_none {nodes : List Node} (none : ∀ n ∈ nodes, ¬ p n) :
    (b.addNodes nodes).1.nodes.find? p = b.nodes.find? p := by
  have unfound : (newcomers (nodeIds b.nodes) nodes).find? p = Option.none :=
    List.find?_eq_none.mpr fun n new => none n (mem_of_mem_newcomers new).1
  rw [addNodes_eq, List.find?_append, unfound, Option.or_none]

theorem find?_addNodes_held (none : ∀ n ∈ b.nodes, ¬ p n) (nodes : List Node) :
    (b.addNodes nodes).2.find? p = (b.addNodes nodes).1.nodes.find? p := by
  induction nodes generalizing b with
  | nil => exact (List.find?_eq_none.mpr none).symm
  | cons n rest ih =>
    change ((b.addNode n).2 :: ((b.addNode n).1.addNodes rest).2).find? p =
      ((b.addNode n).1.addNodes rest).1.nodes.find? p
    unfold addNode
    split
    · rename_i held found
      rw [List.find?_cons_of_neg (none held (mem_of_node? found))]
      exact ih none
    · by_cases sought : p n
      · have first : (b.nodes ++ [n]).find? p = some n := by
          rw [List.find?_append, List.find?_eq_none.mpr none, Option.none_or,
            List.find?_singleton, if_pos sought]
        rw [List.find?_cons_of_pos sought, addNodes_eq, List.find?_append, first, Option.some_or]
      · rw [List.find?_cons_of_neg sought]
        refine ih fun m within => ?_
        rcases List.mem_append.mp within with old | new
        · exact none m old
        · rwa [List.mem_singleton.mp new]

end Search

end Builder

end RenderFlow.Graph
