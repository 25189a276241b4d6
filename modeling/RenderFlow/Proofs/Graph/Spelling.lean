import RenderFlow.Proofs.Graph.Finished

/-!
The id of an edge spells out what the edge says. Where records are numbered and no name holds a hyphen
an id is read back part by part, whichever way it was put together: `Tie.read?_of_wire`.
-/
namespace RenderFlow

open RenderFlow.Graph Text

/-- An id of the form of those that an analysis gives to its records. -/
def IsNumbered (stem id : String) : Prop :=
  ∃ n : Nat, id = stem ++ "-" ++ toString n

theorem IsNumbered.parts {stem id : String} (numbered : IsNumbered stem id)
    (whole : Unhyphenated stem) : ∃ number, hyphenParts id = [stem, number] := by
  obtain ⟨n, rfl⟩ := numbered
  refine ⟨toString n, ?_⟩
  rw [hyphenParts_append, whole.parts, (unhyphenated_toString n).parts, List.singleton_append]

def Effect.names (e : Effect) : List String :=
  e.dependencies.map (·.name) ++ e.setters ++ e.refReads ++ e.refWrites ++ e.externalCalls

def Callback.names (c : Callback) : List String :=
  c.dependencies ++ c.setters ++ c.externalCalls

/-- Records are numbered, and no name that stands in an id looks like two. -/
structure Facts.PlainlyNamed (f : Facts) : Prop where
  hooks : ∀ h ∈ f.hooks, IsNumbered "hook" h.id
  effects : ∀ e ∈ f.effects, IsNumbered "effect" e.id
  callbacks : ∀ c ∈ f.callbacks, IsNumbered "callback" c.id
  locals : ∀ x ∈ f.locals, IsNumbered "var" x.id
  elements : ∀ e ∈ f.elements, IsNumbered "jsx" e.id
  propNames : ∀ name ∈ f.props, Unhyphenated name
  effectNames : ∀ e ∈ f.effects, ∀ name ∈ e.names, Unhyphenated name
  callbackNames : ∀ c ∈ f.callbacks, ∀ name ∈ c.names, Unhyphenated name
  localNames : ∀ x ∈ f.locals, ∀ name ∈ x.dependencies, Unhyphenated name
  elementNames : ∀ e ∈ f.elements, ∀ name ∈ e.props, Unhyphenated name

namespace Graph

/-- The id of the node that some parts begin with, and the parts after it. The id of a record has two
parts and a name has one. -/
def readNode? : List String → Option (String × List String)
  | "prop" :: name :: rest => some (wireId ["prop", name], rest)
  | "external" :: name :: rest => some (wireId ["external", name], rest)
  | kind :: stem :: number :: rest => some (wireId [kind, stem, number], rest)
  | _ => none

def Node.IsReadable (n : Node) : Prop :=
  ∀ rest, readNode? (hyphenParts n.id ++ rest) = some (n.id, rest)

namespace Tie

def ofNames? (id : String) (kind : EdgeKind) (parts : List String) : Option Tie := do
  let (source, rest) ← readNode? parts
  let (target, rest) ← readNode? rest
  match rest with
  | [name] => some ⟨id, source, target, kind, some name⟩
  | _ => none

def ofCall? (id : String) (parts : List String) : Option Tie := do
  let (source, rest) ← readNode? parts
  match rest with
  | [call, name] => some ⟨id, source, wireId [call, name], .external, some name⟩
  | _ => none

/-- The id of an element has three parts, and that of its parent is what stands before it. -/
def ofNesting (id : String) (parts : List String) : Tie :=
  let short := parts.length - 3
  ⟨id, wireId (parts.take short), wireId (parts.drop short), .flow, none⟩

def ofParts? (id : String) : List String → Option Tie
  | "dep" :: "ref" :: rest => ofNames? id .dependency rest
  | "dep" :: rest => ofNames? id .dependency rest
  | "mut" :: "ref" :: rest => ofNames? id .mutation rest
  | "mut" :: rest => ofNames? id .mutation rest
  | "cb" :: "mut" :: rest => ofNames? id .mutation rest
  | "ext" :: rest => ofCall? id rest
  | "var" :: "dep" :: rest => ofNames? id .dependency rest
  | "jsx" :: "ref" :: "attr" :: rest => ofNames? id .mutation rest
  | "jsx" :: "ref" :: "prop" :: rest => ofNames? id .dependency rest
  | "jsx" :: "prop" :: rest => ofNames? id .dependency rest
  | "prop" :: "jsx" :: rest => ofNames? id .dependency rest
  | "jsx" :: "var" :: rest => ofNames? id .dependency rest
  | "jsx" :: "tree" :: rest => some (ofNesting id rest)
  | _ => none

def read? (id : String) : Option Tie :=
  ofParts? id (hyphenParts id)

section Read

variable {source target : Node} {name : String}

theorem ofNames?_parts (id : String) (kind : EdgeKind) (leaves : source.IsReadable)
    (enters : target.IsReadable) (whole : Unhyphenated name) :
    ofNames? id kind (hyphenParts source.id ++ (hyphenParts target.id ++ hyphenParts name)) =
      some ⟨id, source.id, target.id, kind, some name⟩ := by
  simp only [ofNames?, leaves _, enters _, whole.parts, Option.bind_eq_bind, Option.bind_some]

theorem hyphenParts_named (scheme : String) :
    hyphenParts (wireId [scheme, source.id, target.id, name]) =
      hyphenParts scheme ++
        (hyphenParts source.id ++ (hyphenParts target.id ++ hyphenParts name)) := by
  rw [hyphenParts_wireId (by simp)]
  simp

/-- Schemes whose last part is no kind of node are told by their own parts. -/
theorem read?_named {scheme : String} {kind : EdgeKind} (leaves : source.IsReadable)
    (enters : target.IsReadable) (whole : Unhyphenated name)
    (scheme_eq : ∀ id rest, ofParts? id (hyphenParts scheme ++ (hyphenParts source.id ++ rest)) =
      ofNames? id kind (hyphenParts source.id ++ rest)) :
    read? (wireId [scheme, source.id, target.id, name]) =
      some ⟨wireId [scheme, source.id, target.id, name], source.id, target.id, kind,
        some name⟩ := by
  rw [read?, hyphenParts_named, scheme_eq, ofNames?_parts _ _ leaves enters whole]

end Read

end Tie

namespace Node

variable {n : Node} {kind : NodeKind}

theorem isReadable_of_record {stem recordId : String} (named : n.id = kind.nodeId recordId)
    (numbered : IsNumbered stem recordId) (whole : Unhyphenated stem)
    (record : kind ≠ .prop ∧ kind ≠ .external) : n.IsReadable := by
  obtain ⟨number, parts⟩ := numbered.parts whole
  have spelled : hyphenParts n.id = [kind.idPrefix, stem, number] := by
    rw [named, NodeKind.hyphenParts_nodeId, parts]
  have joined : n.id = wireId [kind.idPrefix, stem, number] := by
    rw [← spelled, wireId_hyphenParts]
  intro rest
  rw [spelled, joined]
  cases kind with
  | prop => exact absurd rfl record.1
  | external => exact absurd rfl record.2
  | _ => rfl

theorem isReadable_of_name {name : String} (named : n.id = kind.nodeId name)
    (whole : Unhyphenated name) (bare : kind = .prop ∨ kind = .external) : n.IsReadable := by
  have spelled : hyphenParts n.id = [kind.idPrefix, name] := by
    rw [named, NodeKind.hyphenParts_nodeId, whole.parts]
  have joined : n.id = wireId [kind.idPrefix, name] := by
    rw [← spelled, wireId_hyphenParts]
  intro rest
  rw [spelled, joined]
  rcases bare with rfl | rfl <;> rfl

end Node

end Graph

namespace Facts

variable {f : Facts}

theorem PlainlyNamed.callNames (plain : f.PlainlyNamed) {name : String}
    (listed : name ∈ f.externalCalls) : Unhyphenated name := by
  rw [externalCalls, mem_distinct, List.mem_append] at listed
  rcases listed with effect | callback
  · obtain ⟨e, record, within⟩ := List.mem_flatMap.mp effect
    exact plain.effectNames e record name (List.mem_append_right _ within)
  · obtain ⟨c, record, within⟩ := List.mem_flatMap.mp callback
    exact plain.callbackNames c record name (List.mem_append_right _ within)

theorem PlainlyNamed.isReadable (plain : f.PlainlyNamed) {n : Node}
    (requested : n ∈ f.requestedNodes) : n.IsReadable := by
  simp only [requestedNodes, List.mem_append] at requested
  rcases requested with (((((ref | prop) | state) | derived) | effect) | external) | element
  · obtain ⟨item, listed, named⟩ := exists_item_of_mem_stacked ref
    obtain ⟨h, held, rfl⟩ := List.mem_map.mp listed
    exact Node.isReadable_of_record named (plain.hooks h (List.mem_of_mem_filter held))
      (by decide) (by decide)
  · obtain ⟨item, listed, named⟩ := exists_item_of_mem_stacked prop
    obtain ⟨name, held, rfl⟩ := List.mem_map.mp listed
    exact Node.isReadable_of_name named (plain.propNames name held) (.inl rfl)
  · obtain ⟨item, listed, named⟩ := exists_item_of_mem_stacked state
    obtain ⟨h, held, rfl⟩ := List.mem_map.mp listed
    exact Node.isReadable_of_record named (plain.hooks h (List.mem_of_mem_filter held))
      (by decide) (by decide)
  · obtain ⟨item, listed, named⟩ := exists_item_of_mem_stacked derived
    rcases List.mem_append.mp listed with hook | plainVariable
    · obtain ⟨h, held, rfl⟩ := List.mem_map.mp hook
      exact Node.isReadable_of_record named (plain.hooks h (List.mem_of_mem_filter held))
        (by decide) (by decide)
    · obtain ⟨x, held, rfl⟩ := List.mem_map.mp plainVariable
      exact Node.isReadable_of_record named (plain.locals x held) (by decide) (by decide)
  · obtain ⟨item, listed, named⟩ := exists_item_of_mem_stacked effect
    rcases List.mem_append.mp listed with effect | callback
    · obtain ⟨e, held, rfl⟩ := List.mem_map.mp effect
      exact Node.isReadable_of_record named (plain.effects e held) (by decide) (by decide)
    · obtain ⟨c, held, rfl⟩ := List.mem_map.mp callback
      exact Node.isReadable_of_record named (plain.callbacks c held) (by decide) (by decide)
  · obtain ⟨item, listed, named⟩ := exists_item_of_mem_stacked external
    obtain ⟨name, held, rfl⟩ := List.mem_map.mp listed
    exact Node.isReadable_of_name named (plain.callNames held) (.inr rfl)
  · obtain ⟨index, e, held, rfl⟩ := exists_element_of_mem_elementNodes element
    exact Node.isReadable_of_record rfl (plain.elements e held) (by decide) (by decide)

theorem PlainlyNamed.bound (plain : f.PlainlyNamed) {n : Node}
    (within : n ∈ (Inventory.ofFacts f).elements) {name : String}
    (bound : name ∈ n.infoTexts "props") : Unhyphenated name := by
  obtain ⟨index, e, record, rfl⟩ := Inventory.exists_element_of_mem within
  rw [props_elementNode] at bound
  exact plain.elementNames e record name bound

end Facts

namespace Graph

namespace Tie

/-- After these schemes comes a kind of node, and no kind is spelled like the rest of a longer one. -/
theorem ofParts?_dependency {n : Node} (spells : n.SpellsKind) (id : String) (rest : List String) :
    ofParts? id (hyphenParts "dep" ++ (hyphenParts n.id ++ rest)) =
      ofNames? id .dependency (hyphenParts n.id ++ rest) := by
  obtain ⟨recordId, named⟩ := spells
  rw [named, NodeKind.hyphenParts_nodeId]
  cases n.kind <;> rfl

theorem ofParts?_mutation {n : Node} (spells : n.SpellsKind) (id : String) (rest : List String) :
    ofParts? id (hyphenParts "mut" ++ (hyphenParts n.id ++ rest)) =
      ofNames? id .mutation (hyphenParts n.id ++ rest) := by
  obtain ⟨recordId, named⟩ := spells
  rw [named, NodeKind.hyphenParts_nodeId]
  cases n.kind <;> rfl

theorem read?_call {node call : Node} {name : String} (leaves : node.IsReadable)
    (whole : Unhyphenated name) (named : call.id = NodeKind.external.nodeId name) :
    read? (wireId ["ext", node.id, call.id]) =
      some ⟨wireId ["ext", node.id, call.id], node.id, call.id, .external, some name⟩ := by
  have spelled : hyphenParts call.id = ["external", name] := by
    rw [named, NodeKind.hyphenParts_nodeId, whole.parts]
    rfl
  have parts : hyphenParts (wireId ["ext", node.id, call.id]) =
      "ext" :: (hyphenParts node.id ++ ["external", name]) := by
    rw [hyphenParts_wireId (by simp), ← spelled]
    simp [show hyphenParts "ext" = ["ext"] from rfl]
  have joined : wireId ["external", name] = call.id := by
    rw [← spelled, wireId_hyphenParts]
  rw [read?, parts, ofParts?, ofCall?, leaves]
  simp only [Option.bind_eq_bind, Option.bind_some, joined]

theorem read?_nesting {element : Node} (parentId : String)
    (three : (hyphenParts element.id).length = 3) :
    read? (wireId ["jsx-tree", parentId, element.id]) =
      some ⟨wireId ["jsx-tree", parentId, element.id], parentId, element.id, .flow, none⟩ := by
  have parts : hyphenParts (wireId ["jsx-tree", parentId, element.id]) =
      "jsx" :: "tree" :: (hyphenParts parentId ++ hyphenParts element.id) := by
    rw [hyphenParts_wireId (by simp)]
    simp [show hyphenParts "jsx-tree" = ["jsx", "tree"] from rfl]
  have short : (hyphenParts parentId ++ hyphenParts element.id).length - 3 =
      (hyphenParts parentId).length := by
    rw [List.length_append, three, Nat.add_sub_cancel]
  rw [read?, parts, ofParts?, ofNesting]
  simp only [short, List.take_left, List.drop_left, wireId_hyphenParts]

end Tie

variable {f : Facts}

theorem Inventory.length_parts_element (plain : f.PlainlyNamed) {n : Node}
    (within : n ∈ (Inventory.ofFacts f).elements) : (hyphenParts n.id).length = 3 := by
  obtain ⟨index, e, record, rfl⟩ := exists_element_of_mem within
  obtain ⟨number, parts⟩ := (plain.elements e record).parts (by decide)
  rw [id_elementNode, NodeKind.hyphenParts_nodeId, parts]
  rfl

/-- What a wire says is read back from its id. -/
theorem Tie.read?_of_wire (plain : f.PlainlyNamed) {w : Wire} (asked : w ∈ f.wires) :
    read? w.id = some w.tie := by
  have drawn := Wire.drawn_of_mem asked
  have sorted := Inventory.sorted_ofFacts f
  have ⟨source_held, target_held⟩ := Facts.held_of_mem_wires asked
  have leaves := plain.isReadable (Inventory.requested_ofFacts source_held)
  have enters := plain.isReadable (Inventory.requested_ofFacts target_held)
  have spells := sorted.spelled _ source_held
  cases drawn with
  | @effectDependency e d _ _ record _ listed _ =>
    refine read?_named leaves enters (plain.effectNames e record d.name ?_)
      (ofParts?_dependency spells)
    simp only [Effect.names, List.mem_append]
    exact .inl (.inl (.inl (.inl (List.mem_map_of_mem listed))))
  | @refRead e name _ _ record _ listed _ =>
    refine read?_named leaves enters (plain.effectNames e record name ?_) fun _ _ => rfl
    simp only [Effect.names, List.mem_append]
    exact .inl (.inl (.inr listed))
  | @effectSetter e setter _ _ record _ listed _ =>
    refine read?_named leaves enters (plain.effectNames e record setter ?_)
      (ofParts?_mutation spells)
    simp only [Effect.names, List.mem_append]
    exact .inl (.inl (.inl (.inr listed)))
  | @refWrite e name _ _ record _ listed _ =>
    refine read?_named leaves enters (plain.effectNames e record name ?_) fun _ _ => rfl
    simp only [Effect.names, List.mem_append]
    exact .inl (.inr listed)
  | @callbackDependency c name _ _ record _ listed _ =>
    refine read?_named leaves enters (plain.callbackNames c record name ?_)
      (ofParts?_dependency spells)
    simp only [Callback.names, List.mem_append]
    exact .inl (.inl listed)
  | @callbackSetter c setter _ _ record _ listed _ =>
    refine read?_named leaves enters (plain.callbackNames c record setter ?_) fun _ _ => rfl
    simp only [Callback.names, List.mem_append]
    exact .inl (.inr listed)
  | @effectCall e name _ _ record _ listed found =>
    refine read?_call leaves (plain.effectNames e record name ?_) (Builder.id_of_node? found)
    exact List.mem_append_right _ listed
  | @callbackCall c name _ _ record _ listed found =>
    refine read?_call leaves (plain.callbackNames c record name ?_) (Builder.id_of_node? found)
    exact List.mem_append_right _ listed
  | @variableRead x name _ _ record _ listed _ _ =>
    exact read?_named leaves enters (plain.localNames x record name listed) fun _ _ => rfl
  | refAttachment listed bound _ _ | refUse listed bound _ _ | stateUse listed bound _ _
  | propUse listed bound _ _ | variableUse listed bound _ _ =>
    exact read?_named leaves enters (plain.bound listed bound) fun _ _ => rfl
  | @nesting element _ id listed _ found =>
    rw [read?_nesting id (Inventory.length_parts_element plain listed), Wire.tie,
      Builder.id_of_node? found]

end Graph

end RenderFlow
