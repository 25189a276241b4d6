import RenderFlow.Proofs.Facts.Agreement
import RenderFlow.Proofs.Graph.Clearance
import RenderFlow.Proofs.Graph.Resolution
import RenderFlow.Proofs.Graph.Spelling

/-!
Records and nodes, one for one. What a node stands for is read from its kind and its metadata, and its
id is that of its subject; an analysis gives different ids to different records. Main statement:
`Layout.build_analyze_lossless`.
-/
namespace RenderFlow

open RenderFlow.Graph Hierarchy Text

/-- The column that a hook of a kind has a node in; effects and callbacks have records of their own. -/
def HookKind.column? : HookKind → Option NodeKind
  | .ref => some .independent
  | .localState | .externalStore | .asyncQuery => some .state
  | .reducer | .memoizedValue | .unclassified => some .variable
  | .effect | .layoutEffect | .memoizedCallback => none

namespace Graph

inductive Subject where
  | hook (column : NodeKind) (id : String)
  | prop (name : String)
  | derived (id : String)
  | effect (id : String)
  | callback (id : String)
  | call (name : String)
  | element (id : String)
deriving DecidableEq

namespace Subject

def kind : Subject → NodeKind
  | .hook column _ => column
  | .prop _ => .prop
  | .derived _ => .variable
  | .effect _ | .callback _ => .sideEffect
  | .call _ => .external
  | .element _ => .element

def key : Subject → String
  | .hook _ id | .derived id | .effect id | .callback id | .element id => id
  | .prop name | .call name => name

def nodeId (s : Subject) : String :=
  s.kind.nodeId s.key

def stem? : Subject → Option String
  | .hook _ _ => some "hook"
  | .derived _ => some "var"
  | .effect _ => some "effect"
  | .callback _ => some "callback"
  | .element _ => some "jsx"
  | .prop _ | .call _ => none

theorem unhyphenated_of_stem? {s : Subject} {stem : String} (known : s.stem? = some stem) :
    Unhyphenated stem := by
  cases s <;> cases known <;> decide

theorem eq_of_parts {s t : Subject} (kind : s.kind = t.kind) (stem : s.stem? = t.stem?)
    (key : s.key = t.key) : s = t := by
  cases s <;> cases t <;> simp_all [Subject.kind, Subject.stem?, Subject.key]

end Subject

def Node.subject? (n : Node) : Option Subject :=
  match n.kind with
  | .independent | .state => (n.infoText? "hook_id").map (.hook n.kind)
  | .variable => ((n.infoText? "hook_id").map (.hook .variable)).or
      ((n.infoText? "variable_id").map .derived)
  | .prop => (n.infoText? "prop").map .prop
  | .sideEffect =>
    match n.infoText? "type" with
    | some "effect" => (n.infoText? "id").map .effect
    | some "callback" => (n.infoText? "id").map .callback
    | _ => none
  | .external => (n.infoText? "call").map .call
  | .element => (n.infoText? "element_id").map .element

end Graph

/-- What a component has a node for. -/
inductive Facts.Declares (f : Facts) : Subject → Prop where
  | hook {h : Hook} {column : NodeKind} (listed : h ∈ f.hooks)
      (kind : h.kind.column? = some column) : f.Declares (.hook column h.id)
  | prop {name : String} (listed : name ∈ f.props) : f.Declares (.prop name)
  | derived {v : Variable} (listed : v ∈ f.locals) : f.Declares (.derived v.id)
  | effect {e : Effect} (listed : e ∈ f.effects) : f.Declares (.effect e.id)
  | callback {c : Callback} (listed : c ∈ f.callbacks) : f.Declares (.callback c.id)
  | call {name : String} (listed : name ∈ f.externalCalls) : f.Declares (.call name)
  | element {e : Element} (listed : e ∈ f.elements) : f.Declares (.element e.id)

namespace Graph

/-- Every declared subject has one node that stands for it, and there are no other nodes. -/
structure Layout.Shows (l : Layout) (f : Facts) : Prop where
  once : ∀ s, f.Declares s → ∃ n, l.nodes.filter (·.subject? == some s) = [n]
  only : ∀ n ∈ l.nodes, ∃ s, f.Declares s ∧ n.subject? = some s

section Asked

variable {f : Facts} {kind : NodeKind} {x y : Binary64}

theorem exists_itemNode_of_mem_stacked {start : Rat} {items : List Item} {n : Node}
    (within : n ∈ stacked kind x start items) :
    ∃ item ∈ items, ∃ y, n = Builder.itemNode kind x y item := by
  obtain ⟨index, short, rfl⟩ := List.mem_mapIdx.mp within
  exact ⟨items[index], List.getElem_mem short, _, rfl⟩

theorem subject?_ofRef (h : Hook) (label : String) {column : NodeKind}
    (hooks : column = .independent ∨ column = .state ∨ column = .variable) :
    (Builder.itemNode column x y (.ofRef h label)).subject? = some (.hook column h.id) := by
  have held : (Builder.itemNode column x y (.ofRef h label)).infoText? "hook_id" = some h.id := by
    simp [Builder.itemNode, Item.ofRef, Node.infoText?, Table.get?, Json.asText?]
  rw [Node.subject?, held]
  rcases hooks with rfl | rfl | rfl <;> rfl

theorem subject?_ofVariable (v : Variable) :
    (Builder.itemNode .variable x y (.ofVariable v)).subject? = some (.derived v.id) := by
  simp [Node.subject?, Builder.itemNode, Item.ofVariable, Node.infoText?, Table.get?, Json.asText?]

theorem subject?_ofProp (name : String) :
    (Builder.itemNode .prop x y (.ofProp name)).subject? = some (.prop name) := by
  simp [Node.subject?, Builder.itemNode, Item.ofProp, Node.infoText?, Table.get?, Json.asText?]

theorem subject?_ofEffect (e : Effect) :
    (Builder.itemNode .sideEffect x y (.ofEffect e)).subject? = some (.effect e.id) := by
  simp [Node.subject?, Builder.itemNode, Item.ofEffect, Effect.toFields, Node.infoText?, Table.get?,
    Json.asText?]

theorem subject?_ofCallback (c : Callback) :
    (Builder.itemNode .sideEffect x y (.ofCallback c)).subject? = some (.callback c.id) := by
  simp [Node.subject?, Builder.itemNode, Item.ofCallback, Callback.toFields, Node.infoText?,
    Table.get?, Json.asText?]

theorem subject?_ofExternalCall (name : String) :
    (Builder.itemNode .external x y (.ofExternalCall name)).subject? = some (.call name) := by
  simp [Node.subject?, Builder.itemNode, Item.ofExternalCall, Node.infoText?, Table.get?,
    Json.asText?]

theorem subject?_elementNode (columns : Columns) (index : Nat) (e : Element) :
    (elementNode columns index e).subject? = some (.element e.id) := by
  simp [Node.subject?, elementNode, Node.infoText?, Table.get?, Json.asText?]

/-- A node is asked for because of what it stands for, under its id. -/
theorem exists_subject_of_requested {n : Node} (requested : n ∈ f.requestedNodes) :
    ∃ s, f.Declares s ∧ n.subject? = some s ∧ n.id = s.nodeId := by
  simp only [Facts.requestedNodes, List.mem_append] at requested
  rcases requested with (((((ref | prop) | state) | derived) | effect) | external) | element
  · obtain ⟨item, asked, y, rfl⟩ := exists_itemNode_of_mem_stacked ref
    obtain ⟨h, held, rfl⟩ := List.mem_map.mp asked
    obtain ⟨listed, kind⟩ := List.mem_filter.mp held
    refine ⟨_, .hook listed ?_, subject?_ofRef h _ (.inl rfl), rfl⟩
    rw [beq_iff_eq.mp kind]
    rfl
  · obtain ⟨item, asked, y, rfl⟩ := exists_itemNode_of_mem_stacked prop
    obtain ⟨name, listed, rfl⟩ := List.mem_map.mp asked
    exact ⟨_, .prop listed, subject?_ofProp name, rfl⟩
  · obtain ⟨item, asked, y, rfl⟩ := exists_itemNode_of_mem_stacked state
    obtain ⟨h, held, rfl⟩ := List.mem_map.mp asked
    obtain ⟨listed, kind⟩ := List.mem_filter.mp held
    refine ⟨_, .hook listed ?_, subject?_ofRef h _ (.inr (.inl rfl)), rfl⟩
    revert kind
    cases h.kind <;> simp [HookKind.isState, HookKind.column?]
  · obtain ⟨item, asked, y, rfl⟩ := exists_itemNode_of_mem_stacked derived
    rcases List.mem_append.mp asked with hook | plain
    · obtain ⟨h, held, rfl⟩ := List.mem_map.mp hook
      obtain ⟨listed, kind⟩ := List.mem_filter.mp held
      refine ⟨_, .hook listed ?_, subject?_ofRef h _ (.inr (.inr rfl)), rfl⟩
      revert kind
      cases h.kind <;> simp [HookKind.isVariable, HookKind.column?]
    · obtain ⟨v, listed, rfl⟩ := List.mem_map.mp plain
      exact ⟨_, .derived listed, subject?_ofVariable v, rfl⟩
  · obtain ⟨item, asked, y, rfl⟩ := exists_itemNode_of_mem_stacked effect
    rcases List.mem_append.mp asked with effect | callback
    · obtain ⟨e, listed, rfl⟩ := List.mem_map.mp effect
      exact ⟨_, .effect listed, subject?_ofEffect e, rfl⟩
    · obtain ⟨c, listed, rfl⟩ := List.mem_map.mp callback
      exact ⟨_, .callback listed, subject?_ofCallback c, rfl⟩
  · obtain ⟨item, asked, y, rfl⟩ := exists_itemNode_of_mem_stacked external
    obtain ⟨name, listed, rfl⟩ := List.mem_map.mp asked
    exact ⟨_, .call listed, subject?_ofExternalCall name, rfl⟩
  · obtain ⟨index, e, listed, rfl⟩ := Facts.exists_element_of_mem_elementNodes element
    exact ⟨_, .element listed, subject?_elementNode _ _ e, rfl⟩

theorem nodeId_mem_requestedNodes {s : Subject} (declared : f.Declares s) :
    s.nodeId ∈ nodeIds f.requestedNodes := by
  simp only [Facts.requestedNodes, nodeIds_append, List.mem_append]
  cases declared with
  | @hook h column listed kind =>
    have column_cases : (column = .independent ∧ h.kind == .ref) ∨
        (column = .state ∧ h.kind.isState) ∨ (column = .variable ∧ h.kind.isVariable) := by
      revert kind
      cases h.kind <;> rintro ⟨⟩ <;> decide
    rcases column_cases with ⟨rfl, ref⟩ | ⟨rfl, state⟩ | ⟨rfl, derived⟩
    · have asked : Item.ofHook h ∈ f.refItems :=
        List.mem_map_of_mem (List.mem_filter.mpr ⟨listed, ref⟩)
      exact .inl (.inl (.inl (.inl (.inl (.inl (nodeId_mem_stacked asked))))))
    · have asked : Item.ofState h ∈ f.stateItems :=
        List.mem_map_of_mem (List.mem_filter.mpr ⟨listed, state⟩)
      exact .inl (.inl (.inl (.inl (.inr (nodeId_mem_stacked asked)))))
    · have asked : Item.ofHook h ∈ f.variableItems :=
        List.mem_append_left _ (List.mem_map_of_mem (List.mem_filter.mpr ⟨listed, derived⟩))
      exact .inl (.inl (.inl (.inr (nodeId_mem_stacked asked))))
  | @prop name listed =>
    have asked : Item.ofProp name ∈ f.props.map Item.ofProp := List.mem_map_of_mem listed
    exact .inl (.inl (.inl (.inl (.inl (.inr (nodeId_mem_stacked asked))))))
  | @derived v listed =>
    have asked : Item.ofVariable v ∈ f.variableItems :=
      List.mem_append_right _ (List.mem_map_of_mem listed)
    exact .inl (.inl (.inl (.inr (nodeId_mem_stacked asked))))
  | @effect e listed =>
    have asked : Item.ofEffect e ∈ f.sideEffectItems :=
      List.mem_append_left _ (List.mem_map_of_mem listed)
    exact .inl (.inl (.inr (nodeId_mem_stacked asked)))
  | @callback c listed =>
    have asked : Item.ofCallback c ∈ f.sideEffectItems :=
      List.mem_append_right _ (List.mem_map_of_mem listed)
    exact .inl (.inl (.inr (nodeId_mem_stacked asked)))
  | @call name listed =>
    have asked : Item.ofExternalCall name ∈ f.externalCalls.map Item.ofExternalCall :=
      List.mem_map_of_mem listed
    exact .inl (.inr (nodeId_mem_stacked asked))
  | @element e listed =>
    obtain ⟨index, short, rfl⟩ := List.mem_iff_getElem.mp listed
    exact .inr (mem_nodeIds.mpr ⟨_, List.mem_mapIdx.mpr ⟨index, short, rfl⟩, rfl⟩)

end Asked

end Graph

namespace Facts

variable {f : Facts}

theorem isNumbered_of_ids {α : Type} {id : α → String} {records : List α} {stem : String}
    (ids : records.map id = (List.range' 1 records.length).map (numberedId stem)) {record : α}
    (within : record ∈ records) : IsNumbered stem (id record) := by
  have listed : id record ∈ records.map id := List.mem_map_of_mem within
  rw [ids] at listed
  obtain ⟨n, -, same⟩ := List.mem_map.mp listed
  exact ⟨n, same.symm⟩

theorem stem_eq_of_isNumbered {stem other id : String} (left : IsNumbered stem id)
    (right : IsNumbered other id) (whole : Unhyphenated stem) (whole' : Unhyphenated other) :
    stem = other := by
  obtain ⟨number, parts⟩ := left.parts whole
  obtain ⟨number', parts'⟩ := right.parts whole'
  rw [parts] at parts'
  exact (List.cons.inj parts').1

theorem Declares.isNumbered {s : Subject} (declared : f.Declares s) (counted : f.Counted)
    {stem : String} (known : s.stem? = some stem) : IsNumbered stem s.key := by
  cases declared with
  | hook listed _ => cases known; exact isNumbered_of_ids counted.hooks listed
  | derived listed => cases known; exact isNumbered_of_ids counted.locals listed
  | effect listed => cases known; exact isNumbered_of_ids counted.effects listed
  | callback listed => cases known; exact isNumbered_of_ids counted.callbacks listed
  | element listed => cases known; exact isNumbered_of_ids counted.elements listed
  | prop _ | call _ => cases known

theorem Declares.isSome_stem? {s : Subject} (declared : f.Declares s) :
    s.stem?.isSome = (s.kind != .prop && s.kind != .external) := by
  cases declared with
  | @hook h column listed kind =>
    change true = (column != .prop && column != .external)
    revert kind
    cases h.kind <;> rintro ⟨⟩ <;> rfl
  | _ => rfl

/-- A node's id tells what it stands for. -/
theorem Declares.eq_of_nodeId_eq (counted : f.Counted) {s t : Subject} (first : f.Declares s)
    (second : f.Declares t) (same : s.nodeId = t.nodeId) : s = t := by
  have kind : s.kind = t.kind := NodeKind.eq_of_nodeId_eq same
  have key : s.key = t.key := by
    rw [Subject.nodeId, Subject.nodeId, kind] at same
    exact NodeKind.nodeId_injective same
  have stem : s.stem? = t.stem? := by
    have both : s.stem?.isSome = t.stem?.isSome := by
      rw [first.isSome_stem?, second.isSome_stem?, kind]
    cases left : s.stem? with
    | none => 
      cases right : t.stem? with
      | none => rfl
      | some other => simp [left, right] at both
    | some own =>
      cases right : t.stem? with
      | none => simp [left, right] at both
      | some other =>
        have numbered := second.isNumbered counted right
        rw [← key] at numbered
        rw [stem_eq_of_isNumbered (first.isNumbered counted left) numbered
          (Subject.unhyphenated_of_stem? left) (Subject.unhyphenated_of_stem? right)]
  exact Subject.eq_of_parts kind stem key

end Facts

namespace Graph

namespace Node

variable {key : String}

theorem infoText?_settle (row : key ≠ "row") (slot : key ≠ "slot") (f : Facts) (places : Places)
    (n : Node) : (Layout.settle f places n).infoText? key = n.infoText? key := by
  rw [infoText?, Layout.settle, get?_slotted slot, get?_packed row, infoText?]

theorem subject?_settle (f : Facts) (places : Places) (n : Node) :
    (Layout.settle f places n).subject? = n.subject? := by
  have kept (key : String) (row : key ≠ "row") (slot : key ≠ "slot") :=
    infoText?_settle row slot f places n
  unfold subject?
  rw [Layout.kind_settle, kept "hook_id" (by decide) (by decide),
    kept "variable_id" (by decide) (by decide), kept "prop" (by decide) (by decide),
    kept "type" (by decide) (by decide), kept "id" (by decide) (by decide),
    kept "call" (by decide) (by decide), kept "element_id" (by decide) (by decide)]

end Node

namespace Layout

variable {f : Facts}

theorem exists_subject_of_mem {n : Node} (within : n ∈ (ofFacts f).nodes) :
    ∃ s, f.Declares s ∧ n.subject? = some s ∧ n.id = s.nodeId := by
  obtain ⟨places, next, settles⟩ := exists_settles f
  rw [nodes_ofFacts settles] at within
  obtain ⟨m, held, rfl⟩ := List.mem_map.mp within
  rw [Node.subject?_settle, id_settle]
  exact exists_subject_of_requested (Inventory.requested_ofFacts held)

theorem isReadable_of_held (counted : f.Counted) {n : Node}
    (held : n ∈ (Inventory.ofFacts f).builder.nodes)
    (record : n.kind ≠ .prop ∧ n.kind ≠ .external) : n.IsReadable := by
  obtain ⟨s, declared, -, named⟩ := exists_subject_of_requested (Inventory.requested_ofFacts held)
  rw [(Inventory.spelled_ofFacts held).kind_eq named] at record
  have recorded : s.stem?.isSome := by
    rw [declared.isSome_stem?]
    simpa using record
  obtain ⟨stem, known⟩ := Option.isSome_iff_exists.mp recorded
  exact Node.isReadable_of_record named (declared.isNumbered counted known)
    (Subject.unhyphenated_of_stem? known) record

theorem shows_ofFacts (counted : f.Counted) : (ofFacts f).Shows f := by
  refine ⟨fun s declared => ?_, fun n within => ?_⟩
  · obtain ⟨places, next, settles⟩ := exists_settles f
    obtain ⟨m, held, named⟩ :=
      mem_nodeIds.mp (Inventory.held_of_requested (nodeId_mem_requestedNodes declared))
    have drawn : settle f places m ∈ (ofFacts f).nodes := by
      rw [nodes_ofFacts settles]
      exact List.mem_map_of_mem held
    have id : (settle f places m).id = s.nodeId := (id_settle m).trans named
    refine ⟨settle f places m, ?_⟩
    -- Among the nodes of one layout a subject is as good as an id.
    rw [← filter_key_eq (anchored_ofFacts f).distinct drawn, id]
    refine List.filter_congr fun n within => ?_
    obtain ⟨t, known, subject, own⟩ := exists_subject_of_mem within
    rw [subject, own, Bool.eq_iff_iff, beq_iff_eq, beq_iff_eq, Option.some.injEq]
    exact ⟨fun same => same ▸ rfl, known.eq_of_nodeId_eq counted declared⟩
  · obtain ⟨s, declared, subject, -⟩ := exists_subject_of_mem within
    exact ⟨s, declared, subject⟩

/-- A component `F` with a state `n` that is set by `s`, a memoized callback `f` and an effect; both
call `s`. -/
def tracedTree : Tree Span :=
  let setting := childTree "arrow_function" "" 0 0 [
    childTree "call_expression" "body" 0 0 [childTree "identifier" "function" 4 8 []]]
  let state := plainTree "variable_declarator" [
    childTree "array_pattern" "name" 0 0 [
      wordTree "identifier" 2 3, wordTree "," 0 0, wordTree "identifier" 4 8],
    childTree "call_expression" "value" 0 0 [childTree "identifier" "function" 9 17 []]]
  let callback := plainTree "variable_declarator" [
    childTree "identifier" "name" 18 19 [],
    childTree "call_expression" "value" 0 0 [
      childTree "identifier" "function" 20 31 [],
      childTree "arguments" "arguments" 0 0 [setting]]]
  let effect := plainTree "call_expression" [
    childTree "identifier" "function" 32 41 [],
    childTree "arguments" "arguments" 0 0 [setting]]
  plainTree "program" [plainTree "export_statement" [
    childTree "function_declaration" "declaration" 0 0 [
      childTree "identifier" "name" 0 1 [],
      childTree "statement_block" "body" 0 0 [state, callback, effect]]]]

def tracedSource : RawText :=
  .ofString "F n setN useState f useCallback useEffect"

def tracedFacts : Facts :=
  .ofTree tracedSource.clean none (tracedTree.resolve tracedSource.encode)

end Layout

end Graph

end RenderFlow
