import RenderFlow.Proofs.Graph.Requests

/-!
A builder over its whole life. What it holds is told by the nodes that it was given, in their order;
an edge is drawn exactly if its ends are held and its id is fresh, and an edge that is refused leaves no
trace. Main statement: `Builder.run_accounts`.
-/
namespace RenderFlow.Graph

namespace ColumnRequest

def nodesFrom (r : ColumnRequest) (index : Nat) : List (List Json) → List Node
  | [] => []
  | row :: rest =>
    match r.node index row with
    | .ok n => n :: r.nodesFrom (index + 1) rest
    | .error _ => []

def nodes (r : ColumnRequest) : List Node :=
  match Request.rows r.items with
  | .ok rows => r.nodesFrom 0 rows
  | .error _ => []

end ColumnRequest

namespace EdgeRequest

/-- The request has the types that an edge needs, and no one set the places of its ends by hand. -/
structure IsTyped (r : EdgeRequest) (id : String) (kind : EdgeKind) (label : Option String) : Prop where
  id : r.id = .text id
  kind : r.kind.asNamed? EdgeKind.ofName? = some kind
  label : r.label.asNullable? Json.asText? = some label
  source : ∀ n, r.source = some n → n.written = none
  target : ∀ n, r.target = some n → n.written = none

/-- Both ends are given and held, and no edge has the id. -/
def IsReady (r : EdgeRequest) (b : Builder) (id : String) : Prop :=
  ∃ source target, r.source = some source ∧ r.target = some target ∧
    source.id ∈ nodeIds b.nodes ∧ target.id ∈ nodeIds b.nodes ∧ id ∉ b.edges.map (·.id)

end EdgeRequest

namespace Builder

/-- What is asked of a builder. An end of an edge is any node, held or not, or missing. -/
inductive Call where
  | addNode (n : Node)
  | stackColumn (r : ColumnRequest)
  | addEdge (r : EdgeRequest)

def Call.nodes : Call → List Node
  | .addNode n => [n]
  | .stackColumn r => r.nodes
  | .addEdge _ => []

def call (b : Builder) : Call → Builder
  | .addNode n => (b.addNode n).1
  | .stackColumn r => (b.stackRequest r).1
  | .addEdge r =>
    match b.edgeRequest r with
    | .ok (b, _) => b
    | .error _ => b

def run (columns : Columns) (calls : List Call) : Builder :=
  calls.foldl call { columns := columns }

/-- What a builder holds after it was given some nodes: of the nodes with one id the first, in the order
in which the ids came, and edges between them that it tells apart by their ids. -/
structure Accounts (b : Builder) (given : List Node) : Prop where
  order : nodeIds b.nodes = distinct (nodeIds given)
  first : ∀ id, b.node? id = given.find? (·.id == id)
  recorded : b.Recorded
  known : ∀ e ∈ b.edges, e.IsKnown b.nodes

/-- A request that is ready is answered with its edge, which is added; any other one is answered with
nothing and changes nothing. -/
def Answers (b : Builder) (r : EdgeRequest) (id : String) (kind : EdgeKind) (label : Option String) :
    Prop :=
  (r.IsReady b id ∧ ∃ source target, r.source = some source ∧ r.target = some target ∧
    b.edgeRequest r = .ok (b.withEdge (.between id source target kind label),
      some (.between id source target kind label))) ∨
  (¬ r.IsReady b id ∧ b.edgeRequest r = .ok (b, none))

def Refuses (b : Builder) (r : EdgeRequest) : Prop :=
  ∀ c e, b.edgeRequest r ≠ .ok (c, some e)

structure IsPrefix (b c : Builder) : Prop where
  nodes : b.nodes <+: c.nodes
  edges : b.edges <+: c.edges
  edgeIds : b.edgeIds <:+ c.edgeIds

theorem IsPrefix.refl (b : Builder) : b.IsPrefix b :=
  ⟨List.prefix_rfl, List.prefix_rfl, List.suffix_rfl⟩

theorem IsPrefix.trans {a b c : Builder} (first : a.IsPrefix b) (second : b.IsPrefix c) :
    a.IsPrefix c :=
  ⟨first.nodes.trans second.nodes, first.edges.trans second.edges,
    first.edgeIds.trans second.edgeIds⟩

theorem isPrefix_withEdge (b : Builder) (e : Edge) : b.IsPrefix (b.withEdge e) :=
  ⟨List.prefix_rfl, List.prefix_append _ _, List.suffix_cons _ _⟩

theorem isPrefix_addNodes (b : Builder) (nodes : List Node) : b.IsPrefix (b.addNodes nodes).1 := by
  rw [addNodes_eq]
  exact ⟨List.prefix_append _ _, List.prefix_rfl, List.suffix_rfl⟩

theorem stackRows_eq (b : Builder) (r : ColumnRequest) (index : Nat) (rows : List (List Json)) :
    (b.stackRows r index rows).1 = (b.addNodes (r.nodesFrom index rows)).1 := by
  induction rows generalizing b index with
  | nil => rfl
  | cons row rest ih =>
    rw [stackRows, ColumnRequest.nodesFrom]
    cases r.node index row with
    | error fault => rfl
    | ok n => exact ih _ (index + 1)

theorem stackRequest_eq (b : Builder) (r : ColumnRequest) :
    (b.stackRequest r).1 = (b.addNodes r.nodes).1 := by
  rw [stackRequest, ColumnRequest.nodes]
  cases Request.rows r.items with
  | error fault => rfl
  | ok rows => exact stackRows_eq b r 0 rows

theorem call_addEdge_cases (b : Builder) (r : EdgeRequest) :
    b.call (.addEdge r) = b ∨ ∃ e, b.call (.addEdge r) = b.withEdge e ∧
      e.id ∉ b.edgeIds ∧ e.IsKnown b.nodes := by
  cases asked : b.edgeRequest r with
  | error fault => exact .inl (by rw [call, asked])
  | ok added =>
    obtain ⟨c, e⟩ := added
    have called : b.call (.addEdge r) = c := by rw [call, asked]
    rw [called]
    rcases edgeRequest_cases asked with rfl | ⟨w, -, -, rfl⟩
    · exact .inl rfl
    · rw [addWire_eq]
      split
      · rename_i accepted
        simp only [accepts, Bool.and_eq_true, Bool.not_eq_true', List.contains_eq_mem,
          decide_eq_false_iff_not, hasNode_iff] at accepted
        exact .inr ⟨w.edge, rfl, accepted.1.1, accepted.1.2, accepted.2⟩
      · exact .inl rfl

theorem call_eq (b : Builder) (c : Call) :
    b.call c = (b.addNodes c.nodes).1 ∨
      c.nodes = [] ∧ ∃ e, b.call c = b.withEdge e ∧ e.id ∉ b.edgeIds ∧ e.IsKnown b.nodes := by
  cases c with
  | addNode n => exact .inl rfl
  | stackColumn r => exact .inl (stackRequest_eq b r)
  | addEdge r => exact (call_addEdge_cases b r).imp id fun added => ⟨rfl, added⟩

theorem isPrefix_call (b : Builder) (c : Call) : b.IsPrefix (b.call c) := by
  rcases call_eq b c with same | ⟨-, e, same, -⟩
  · rw [same]
    exact isPrefix_addNodes b c.nodes
  · rw [same]
    exact isPrefix_withEdge b e

theorem isPrefix_foldl_call (calls : List Call) (b : Builder) : b.IsPrefix (calls.foldl call b) := by
  induction calls generalizing b with
  | nil => exact .refl b
  | cons c rest ih => exact (isPrefix_call b c).trans (ih (b.call c))

theorem Accounts.addNodes {b : Builder} {given : List Node} (accounts : b.Accounts given)
    (nodes : List Node) : (b.addNodes nodes).1.Accounts (given ++ nodes) := by
  have held (id : String) : id ∈ nodeIds b.nodes ↔ id ∈ nodeIds given := by
    rw [accounts.order, mem_distinct]
  rw [addNodes_eq]
  constructor
  · rw [nodeIds_append, nodeIds_append, distinct_append, nodeIds_newcomers, accounts.order]
    simp only [mem_distinct]
  · intro id
    have first := accounts.first id
    rw [node?] at first ⊢
    rw [List.find?_append, List.find?_append, first, find?_newcomers]
    by_cases known : id ∈ nodeIds b.nodes
    · obtain ⟨n, within, named⟩ := mem_nodeIds.mp ((held id).mp known)
      have found : (given.find? (·.id == id)).isSome :=
        List.find?_isSome.mpr ⟨n, within, by simp [named]⟩
      obtain ⟨m, same⟩ := Option.isSome_iff_exists.mp found
      rw [same, Option.some_or, Option.some_or]
    · rw [if_neg known]
  · exact ⟨accounts.recorded.ids, accounts.recorded.distinct⟩
  · exact fun e within => (accounts.known e within).mono (by
      rw [nodeIds_append]
      exact List.prefix_append _ _)

theorem Accounts.withEdge {b : Builder} {given : List Node} (accounts : b.Accounts given) {e : Edge}
    (fresh : e.id ∉ b.edgeIds) (known : e.IsKnown b.nodes) : (b.withEdge e).Accounts given := by
  refine ⟨accounts.order, accounts.first, accounts.recorded.withEdge fresh, fun other within => ?_⟩
  rcases List.mem_append.mp within with old | new
  · exact accounts.known other old
  · rw [List.mem_singleton.mp new]
    exact known

theorem Accounts.call {b : Builder} {given : List Node} (accounts : b.Accounts given) (c : Call) :
    (b.call c).Accounts (given ++ c.nodes) := by
  rcases call_eq b c with same | ⟨none, e, same, fresh, known⟩
  · rw [same]
    exact accounts.addNodes c.nodes
  · rw [same, none, List.append_nil]
    exact accounts.withEdge fresh known

theorem Accounts.foldl_call {b : Builder} {given : List Node} (accounts : b.Accounts given)
    (calls : List Call) :
    (calls.foldl Builder.call b).Accounts (given ++ calls.flatMap Call.nodes) := by
  induction calls generalizing b given with
  | nil => simpa using accounts
  | cons c rest ih =>
    rw [List.flatMap_cons, ← List.append_assoc]
    exact ih (accounts.call c)

theorem accounts_run (columns : Columns) (calls : List Call) :
    (run columns calls).Accounts (calls.flatMap Call.nodes) := by
  have start : Accounts { columns := columns } [] :=
    ⟨rfl, fun _ => rfl, ⟨fun _ => Iff.rfl, List.nodup_nil⟩, fun _ within => absurd within List.not_mem_nil⟩
  exact start.foldl_call calls

theorem isReady_iff_accepts {b : Builder} (recorded : b.Recorded) {r : EdgeRequest} {id : String}
    {source target : Node} (leaves : r.source = some source) (enters : r.target = some target) :
    r.IsReady b id ↔ b.accepts id source target := by
  simp [EdgeRequest.IsReady, accepts, leaves, enters, hasNode_iff, ← recorded.ids, and_assoc,
    and_comm, and_left_comm]

theorem edgeRequest_of_isTyped (b : Builder) {r : EdgeRequest} {id : String} {kind : EdgeKind}
    {label : Option String} (typed : r.IsTyped id kind label) :
    b.edgeRequest r = .ok (b.addEdge id r.source r.target kind label) := by
  unfold edgeRequest
  cases leaves : r.source with
  | none => rfl
  | some source =>
    cases enters : r.target with
    | none => rfl
    | some target =>
      have sound : Edge.fault? source target = none := by
        rw [Edge.fault?, Node.endFault?_eq_none (typed.source source leaves),
          Node.endFault?_eq_none (typed.target target enters)]
        rfl
      have taken : b.takesUp (.text id) source target = b.accepts id source target := rfl
      simp only [typed.id, taken, sound, typed.kind, typed.label]
      by_cases accepted : b.accepts id source target
      · rw [accepted]
        rfl
      · rw [Bool.eq_false_of_not_eq_true accepted, addEdge, if_neg accepted]
        rfl

theorem answers_of_isTyped {b : Builder} (recorded : b.Recorded) {r : EdgeRequest} {id : String}
    {kind : EdgeKind} {label : Option String} (typed : r.IsTyped id kind label) :
    b.Answers r id kind label := by
  rw [Answers, edgeRequest_of_isTyped b typed]
  cases leaves : r.source with
  | none => exact .inr ⟨by simp [EdgeRequest.IsReady, leaves], rfl⟩
  | some source =>
    cases enters : r.target with
    | none => exact .inr ⟨by simp [EdgeRequest.IsReady, enters], rfl⟩
    | some target =>
      rw [isReady_iff_accepts recorded leaves enters, addEdge]
      by_cases accepted : b.accepts id source target
      · exact .inl ⟨accepted, source, target, rfl, rfl, by rw [if_pos accepted]; rfl⟩
      · exact .inr ⟨accepted, by rw [if_neg accepted]⟩

theorem edgeRequest_eq_self {b c : Builder} {r : EdgeRequest}
    (asked : b.edgeRequest r = .ok (c, none)) : c = b := by
  rcases edgeRequest_eq asked with same | ⟨id, source, target, kind, label, -, -, same⟩
  · exact congrArg Prod.fst same
  · rw [addEdge] at same
    split at same
    · cases same
    · exact congrArg Prod.fst same

theorem call_addEdge_of_refuses {b : Builder} {r : EdgeRequest} (refused : b.Refuses r) :
    b.call (.addEdge r) = b := by
  rw [call]
  cases asked : b.edgeRequest r with
  | error fault => rfl
  | ok added =>
    obtain ⟨c, e⟩ := added
    cases e with
    | some e => exact absurd asked (refused c e)
    | none => exact edgeRequest_eq_self asked

theorem run_append (columns : Columns) (calls more : List Call) :
    run columns (calls ++ more) = more.foldl call (run columns calls) :=
  List.foldl_append

/-- Whatever was asked of a builder, it holds of the nodes with one id the first, in the order in which
the ids came, and edges between them that it tells apart by their ids. A request for an edge is answered
with it exactly if both ends are given and held and the id is fresh. A refused request might as well not
have been made, so it can be made again later, and nothing that is held is ever given up. -/
theorem run_accounts (columns : Columns) :
    (∀ calls, (run columns calls).Accounts (calls.flatMap Call.nodes) ∧
      ∀ r id kind label, r.IsTyped id kind label → (run columns calls).Answers r id kind label) ∧
    (∀ before after r, (run columns before).Refuses r →
      run columns (before ++ .addEdge r :: after) = run columns (before ++ after)) ∧
    ∀ calls more, (run columns calls).IsPrefix (run columns (calls ++ more)) := by
  refine ⟨fun calls => ?_, fun before after r refused => ?_, fun calls more => ?_⟩
  · have accounts := accounts_run columns calls
    exact ⟨accounts, fun r id kind label typed => answers_of_isTyped accounts.recorded typed⟩
  · rw [run_append, List.foldl_cons, call_addEdge_of_refuses refused, run_append]
  · rw [run_append]
    exact isPrefix_foldl_call more (run columns calls)

end Builder

end RenderFlow.Graph
