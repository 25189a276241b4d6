import RenderFlow.Proofs.Graph.Asked
import RenderFlow.Proofs.Graph.Tracing
import RenderFlow.Proofs.Markup.Containers

/-!
From the markup of an element to its edges. A ref that the markup binds is found before anything
else of its name, so of all edges that meet the element under this name there is one, to the ref if
it is attached and from it otherwise; and elements are joined to their parents. Main statement:
`Layout.build_analyze_binds`.
-/
namespace RenderFlow

open RenderFlow.Graph Text

namespace Facts

variable {f : Facts}

theorem exists_markup_of_element {parser : SyntaxParser} {source : RawText}
    {fileName : Option RawText} (analyzed : analyze parser source fileName = .ok f) :
    ∀ e ∈ f.elements, ∃ t ∈ (parsed parser source fileName).parts, e.IsOf t := by
  intro e listed
  rcases analyze_eq_ok_cases analyzed with rfl | ⟨fault, rfl⟩
  · rcases ofTree_cases source.clean (fileName.map RawText.clean) (parsed parser source fileName)
      with ⟨name, component, body, found, same⟩ | same
    · rw [same] at listed
      obtain ⟨t, walked, own⟩ := Tree.exists_of_mem_elements listed
      have inside := (Tree.mem_parts_of_componentBody? found).2
      exact ⟨t, Tree.parts_trans _ inside (body.walk_subset_parts walked), own⟩
    · rw [same] at listed
      cases listed
  · cases listed

theorem Counted.exists_elementNode (counted : f.Counted) {e : Element} (listed : e ∈ f.elements) :
    ∃ index, elementNode Columns.standard index e ∈ (Inventory.ofFacts f).elements := by
  obtain ⟨index, short, rfl⟩ := List.mem_iff_getElem.mp listed
  refine ⟨index, ?_⟩
  rw [counted.elements_eq]
  exact List.mem_mapIdx.mpr ⟨index, short, rfl⟩

end Facts

namespace Graph

def Edge.meets (name nodeId : String) (e : Edge) : Bool :=
  e.label == some name && (e.source.nodeId == nodeId || e.target.nodeId == nodeId)

/-- Of all edges that meet an element under a name there is one, and it joins the element with a
ref: it goes there if the ref is attached, and otherwise it comes from there. -/
def Layout.BindsRef (l : Layout) (element ref : Subject) (name : String) (attached : Prop) : Prop :=
  ∃ a b d, l.nodes.filter (·.subject? == some element) = [a] ∧
    l.nodes.filter (·.subject? == some ref) = [b] ∧
    l.edges.filter (Edge.meets name a.id) = [d] ∧
    (attached → d.kind = .mutation ∧ d.source.nodeId = a.id ∧ d.target.nodeId = b.id) ∧
    (¬ attached → d.kind = .dependency ∧ d.source.nodeId = b.id ∧ d.target.nodeId = a.id)

def flowEnds? (e : Element) : Option (String × String) :=
  e.parentId.map fun p => (NodeKind.element.nodeId p, NodeKind.element.nodeId e.id)

/-- Each element has one node, each parent is an element, and the flow edges are those from the node
of a parent to that of its child, each of them once. -/
structure Layout.Nests (l : Layout) (f : Facts) : Prop where
  nodes : ∀ e ∈ f.elements, ∃ n, l.nodes.filter (·.subject? == some (.element e.id)) = [n] ∧
    n.id = NodeKind.element.nodeId e.id
  parents : ∀ e ∈ f.elements, ∀ p, e.parentId = some p → ∃ d ∈ f.elements, d.id = p
  edges : ((l.edges.filter (·.kind == .flow)).map fun d => (d.source.nodeId, d.target.nodeId)).Perm
    (f.elements.filterMap flowEnds?)

namespace Tie

def ofEnds? (id : String) (kind : EdgeKind) (label : List String → Option String)
    (parts : List String) : Option Tie := do
  let (source, rest) ← readNode? parts
  let (target, rest) ← readNode? rest
  return ⟨id, source, target, kind, label rest⟩

/-- What the edges say that attach refs, read them or nest elements. A name may hold hyphens here,
since it comes last. -/
def ofMarkup? (id : String) : List String → Option Tie
  | "jsx" :: "ref" :: "attr" :: rest => ofEnds? id .mutation (some ∘ wireId) rest
  | "jsx" :: "ref" :: "prop" :: rest => ofEnds? id .dependency (some ∘ wireId) rest
  | "jsx" :: "tree" :: rest => ofEnds? id .flow (fun _ => none) rest
  | _ => none

def readMarkup? (id : String) : Option Tie :=
  ofMarkup? id (hyphenParts id)

theorem ofEnds?_parts {source target : Node} (leaves : source.IsReadable)
    (enters : target.IsReadable) (id : String) (kind : EdgeKind)
    (label : List String → Option String) (rest : List String) :
    ofEnds? id kind label (hyphenParts source.id ++ (hyphenParts target.id ++ rest)) =
      some ⟨id, source.id, target.id, kind, label rest⟩ := by
  simp only [ofEnds?, leaves _, enters _, Option.bind_eq_bind, Option.bind_some, Option.pure_def]

theorem readMarkup?_named {source target : Node} {kind : EdgeKind} {scheme name : String}
    (leaves : source.IsReadable) (enters : target.IsReadable)
    (scheme_eq : ∀ id rest, ofMarkup? id (hyphenParts scheme ++ rest) =
      ofEnds? id kind (some ∘ wireId) rest) :
    readMarkup? (wireId [scheme, source.id, target.id, name]) =
      some ⟨wireId [scheme, source.id, target.id, name], source.id, target.id, kind,
        some name⟩ := by
  rw [readMarkup?, hyphenParts_named, scheme_eq, ofEnds?_parts leaves enters, Function.comp_apply,
    wireId_hyphenParts]

theorem readMarkup?_nesting {parent element : Node} (leaves : parent.IsReadable)
    (enters : element.IsReadable) :
    readMarkup? (wireId ["jsx-tree", parent.id, element.id]) =
      some ⟨wireId ["jsx-tree", parent.id, element.id], parent.id, element.id, .flow, none⟩ := by
  have parts : hyphenParts (wireId ["jsx-tree", parent.id, element.id]) =
      "jsx" :: "tree" :: (hyphenParts parent.id ++ (hyphenParts element.id ++ [])) := by
    rw [hyphenParts_wireId (by simp)]
    simp [show hyphenParts "jsx-tree" = ["jsx", "tree"] from rfl]
  rw [readMarkup?, parts, ofMarkup?, ofEnds?_parts leaves enters]

end Tie

namespace Wire

def ofRef (element ref : Node) (name : String) : Wire :=
  if name ∈ element.infoTexts "ref_props" then
    ⟨wireId ["jsx-ref-attr", element.id, ref.id, name], element, ref, .mutation, some name⟩
  else
    ⟨wireId ["jsx-ref-prop", ref.id, element.id, name], ref, element, .dependency, some name⟩

def nesting (parent element : Node) : Wire :=
  ⟨wireId ["jsx-tree", parent.id, element.id], parent, element, .flow, none⟩

variable {f : Facts} {w : Wire} {parent element ref : Node} {name : String}

theorem ofBoundName_of_ref {v : Inventory} (found : v.ref? name = some ref) :
    ofBoundName v element name = some (ofRef element ref name) := by
  simp only [ofBoundName, found, ofRef, List.contains_iff_mem]
  split <;> rfl

theorem ofRef_mem (listed : element ∈ (Inventory.ofFacts f).elements)
    (bound : name ∈ element.infoTexts "props")
    (found : (Inventory.ofFacts f).ref? name = some ref) : ofRef element ref name ∈ f.wires := by
  simp only [Facts.wires, ofFacts, ofElements, List.mem_append]
  exact .inr (.inl (List.mem_flatMap.mpr
    ⟨element, listed, List.mem_filterMap.mpr ⟨name, bound, ofBoundName_of_ref found⟩⟩))

theorem nesting_mem (held : parent ∈ (Inventory.ofFacts f).builder.nodes)
    (listed : element ∈ (Inventory.ofFacts f).elements)
    (linked : element.infoText? "parent_id" = some parent.id) :
    nesting parent element ∈ f.wires := by
  have drawn : ofNesting (Inventory.ofFacts f) element = some (nesting parent element) := by
    rw [ofNesting, linked, Option.bind_eq_bind, Option.bind_some, Inventory.node?_of_mem held]
    rfl
  simp only [Facts.wires, ofFacts, ofElements, List.mem_append]
  exact .inr (.inr (List.mem_filterMap.mpr ⟨element, listed, drawn⟩))

/-- The id of a wire from markup says what the wire says, and no other id can be read like that. -/
theorem tie_eq_of_readMarkup? (counted : f.Counted) (asked : w ∈ f.wires) {t : Tie}
    (read : Tie.readMarkup? w.id = some t) : w.tie = t := by
  have sorted := Inventory.sorted_ofFacts f
  have ⟨source_held, target_held⟩ := Facts.held_of_mem_wires asked
  have readable {n : Node} (held : n ∈ (Inventory.ofFacts f).builder.nodes) {kind : NodeKind}
      (known : n.kind = kind) (record : kind ≠ .prop ∧ kind ≠ .external) : n.IsReadable :=
    Layout.isReadable_of_held counted held (known ▸ record)
  have unread {scheme : String} {rest : List String}
      (other : ∀ id more, Tie.ofMarkup? id (hyphenParts scheme ++ more) = none)
      (same : w.id = wireId (scheme :: rest)) : w.tie = t := by
    rw [Tie.readMarkup?, same, hyphenParts_wireId (by simp), List.flatMap_cons, other] at read
    cases read
  cases Wire.drawn_of_mem asked with
  | refAttachment listed _ found _ =>
    rw [Tie.readMarkup?_named (readable source_held (sorted.elements _ listed) (by decide))
      (readable target_held (Inventory.kind_of_ref? sorted found) (by decide))
      fun _ _ => rfl] at read
    exact Option.some.inj read
  | refUse listed _ found _ =>
    rw [Tie.readMarkup?_named
      (readable source_held (Inventory.kind_of_ref? sorted found) (by decide))
      (readable target_held (sorted.elements _ listed) (by decide)) fun _ _ => rfl] at read
    exact Option.some.inj read
  | @nesting element parent id listed below found =>
    obtain ⟨recordId, rfl⟩ := sorted.parents _ listed _ below
    dsimp only at read
    rw [← Builder.id_of_node? found, Tie.readMarkup?_nesting
      (readable source_held (Inventory.kind_of_node? sorted found) (by decide))
      (readable target_held (sorted.elements _ listed) (by decide))] at read
    rw [← Option.some.inj read, tie, Builder.id_of_node? found]
  | effectDependency | refRead | effectSetter | refWrite | callbackDependency | callbackSetter
  | effectCall | callbackCall | variableRead | stateUse | propUse | variableUse =>
    exact unread (fun _ _ => rfl) rfl

theorem tie_ofRef_of_attached (attached : name ∈ element.infoTexts "ref_props") :
    (ofRef element ref name).tie = ⟨wireId ["jsx-ref-attr", element.id, ref.id, name], element.id,
      ref.id, .mutation, some name⟩ := by
  rw [ofRef, if_pos attached]
  rfl

theorem tie_ofRef_of_unattached (unattached : name ∉ element.infoTexts "ref_props") :
    (ofRef element ref name).tie = ⟨wireId ["jsx-ref-prop", ref.id, element.id, name], ref.id,
      element.id, .dependency, some name⟩ := by
  rw [ofRef, if_neg unattached]
  rfl

theorem readMarkup?_ofRef (leaves : element.IsReadable) (enters : ref.IsReadable) :
    Tie.readMarkup? (ofRef element ref name).id = some (ofRef element ref name).tie := by
  unfold ofRef
  split
  · exact Tie.readMarkup?_named leaves enters fun _ _ => rfl
  · exact Tie.readMarkup?_named enters leaves fun _ _ => rfl

open Inventory in
theorem eq_ofRef_of_meets (asked : w ∈ f.wires) (kind : element.kind = .element)
    (meets : w.source = element ∨ w.target = element) (label : w.label = some name)
    (found : (Inventory.ofFacts f).ref? name = some ref) : w = ofRef element ref name := by
  have sorted := sorted_ofFacts f
  have unmet (source : w.source.kind ≠ .element) (target : w.target.kind ≠ .element) :
      w = ofRef element ref name := by
    rcases meets with rfl | rfl
    · exact absurd kind source
    · exact absurd kind target
  have other {n : Node} {own : NodeKind} (known : n.kind = own) (apart : own ≠ .element) :
      n.kind ≠ .element := known ▸ apart
  have unread {n : Node} (read : n.kind.isRead) : n.kind ≠ .element := by
    intro same
    rw [same] at read
    cases read
  -- What runs to side effects or variables or from them meets no element; what else is drawn from a
  -- bound name is drawn only where no ref has it.
  cases drawn_of_mem asked with
  | effectDependency _ node _ source | callbackDependency _ node _ source =>
    exact unmet (unread (isRead_of_dependency? sorted source))
      (other (kind_of_node? sorted node) (by decide))
  | refRead _ node _ source =>
    exact unmet (other (kind_of_ref? sorted source) (by decide))
      (other (kind_of_node? sorted node) (by decide))
  | effectSetter _ node _ target | callbackSetter _ node _ target =>
    exact unmet (other (kind_of_node? sorted node) (by decide))
      (other (kind_of_state? sorted target) (by decide))
  | refWrite _ node _ target =>
    exact unmet (other (kind_of_node? sorted node) (by decide))
      (other (kind_of_ref? sorted target) (by decide))
  | effectCall _ node _ target | callbackCall _ node _ target =>
    exact unmet (other (kind_of_node? sorted node) (by decide))
      (other (kind_of_node? sorted target) (by decide))
  | variableRead _ node _ source _ =>
    exact unmet (unread (isRead_of_source? sorted source))
      (other (kind_of_node? sorted node) (by decide))
  | refAttachment _ _ target attached =>
    cases label
    cases found.symm.trans target
    rcases meets with rfl | rfl
    · rw [ofRef, if_pos attached]
    · exact absurd kind (other (kind_of_ref? sorted target) (by decide))
  | refUse _ _ source unattached =>
    cases label
    cases found.symm.trans source
    rcases meets with rfl | rfl
    · exact absurd kind (other (kind_of_ref? sorted source) (by decide))
    · rw [ofRef, if_neg unattached]
  | stateUse _ _ refless _ =>
    cases label
    cases refless.symm.trans found
  | propUse _ _ others _ | variableUse _ _ others _ =>
    cases label
    cases others.1.symm.trans found
  | nesting => cases label

theorem exists_flowEnds? (asked : w ∈ f.wires) (kind : w.kind = .flow) :
    (∃ e ∈ f.elements, flowEnds? e = some (w.source.id, w.target.id)) ∧
      w.id = wireId ["jsx-tree", w.source.id, w.target.id] := by
  cases drawn_of_mem asked with
  | @nesting element parent id listed below found =>
    obtain ⟨index, e, record, rfl⟩ := Inventory.exists_element_of_mem listed
    rw [parent_elementNode] at below
    obtain ⟨p, named, rfl⟩ := Option.map_eq_some_iff.mp below
    have parented := (Option.filter_eq_some_iff.mp named).1
    rw [Builder.id_of_node? found]
    exact ⟨⟨e, record, by rw [flowEnds?, parented]; rfl⟩, rfl⟩
  | effectDependency | refRead | effectSetter | refWrite | callbackDependency | callbackSetter
  | effectCall | callbackCall | variableRead | refAttachment | refUse | stateUse | propUse
  | variableUse => cases kind

theorem exists_flow (counted : f.Counted) (nests : f.WellNested) {e : Element}
    (listed : e ∈ f.elements) {source target : String}
    (hangs : flowEnds? e = some (source, target)) :
    ∃ w ∈ f.wires, Tie.readMarkup? w.id = some w.tie ∧ w.kind = .flow ∧
      w.source.id = source ∧ w.target.id = target := by
  obtain ⟨p, below, ends⟩ := Option.map_eq_some_iff.mp hangs
  obtain ⟨rfl, rfl⟩ := Prod.mk.inj ends
  obtain ⟨d, parent, rfl, -⟩ := nests.exists_parent listed below
  obtain ⟨row, upper⟩ := counted.exists_elementNode parent
  obtain ⟨index, lower⟩ := counted.exists_elementNode listed
  have held := (Inventory.housed_ofFacts f).elements
  have readable {i : Nat} {c : Element}
      (within : elementNode Columns.standard i c ∈ (Inventory.ofFacts f).elements) :
      (elementNode Columns.standard i c).IsReadable :=
    Layout.isReadable_of_held counted (held within) ⟨nofun, nofun⟩
  have known : parentNodeId? e = some (NodeKind.element.nodeId d.id) := by
    rw [parentNodeId?, below, Option.filter_some, if_pos (by simpa using nests.named d parent)]
    rfl
  have linked : (elementNode Columns.standard index e).infoText? "parent_id" =
      some (elementNode Columns.standard row d).id :=
    (parent_elementNode Columns.standard index e).trans known
  exact ⟨_, nesting_mem (held upper) lower linked,
    Tie.readMarkup?_nesting (readable upper) (readable lower), rfl, rfl, rfl⟩

end Wire

namespace Layout

variable {f : Facts}

theorem tie_eq_of_readMarkup? (counted : f.Counted) {e : Edge} (within : e ∈ (ofFacts f).edges)
    {t : Tie} (read : Tie.readMarkup? e.id = some t) : e.tie = t := by
  rcases tie_cases within with ⟨w, asked, same⟩ | ⟨value, setter, -, -, same⟩
  · have id : e.id = w.id := congrArg Tie.id same
    rw [same]
    exact Wire.tie_eq_of_readMarkup? counted asked (id ▸ read)
  · have id : e.id = wireId ["link", value, setter] :=
      (congrArg Tie.id same).trans (Tie.id_link value setter)
    rw [id, Tie.readMarkup?, hyphenParts_wireId (by simp)] at read
    cases read

theorem exists_edge_of_markup (counted : f.Counted) {w : Wire} (asked : w ∈ f.wires)
    (read : Tie.readMarkup? w.id = some w.tie) : ∃ d ∈ (ofFacts f).edges, d.tie = w.tie := by
  obtain ⟨d, within, id⟩ := exists_edge_of_wire asked
  exact ⟨d, within, tie_eq_of_readMarkup? counted within (id ▸ read)⟩

theorem meets_of_tie_eq_ofRef {element ref : Node} {name : String} {e : Edge}
    (same : e.tie = (Wire.ofRef element ref name).tie) : e.meets name element.id := by
  have label : e.label = e.tie.label := rfl
  have source : e.source.nodeId = e.tie.source := rfl
  have target : e.target.nodeId = e.tie.target := rfl
  rw [Edge.meets, label, source, target, same]
  by_cases attached : name ∈ element.infoTexts "ref_props"
  · simp [Wire.tie_ofRef_of_attached attached]
  · simp [Wire.tie_ofRef_of_unattached attached]

theorem id_eq_of_meets {element ref : Node} {name : String}
    (listed : element ∈ (Inventory.ofFacts f).elements)
    (found : (Inventory.ofFacts f).ref? name = some ref) {e : Edge}
    (within : e ∈ (ofFacts f).edges) (meets : e.meets name element.id) :
    e.id = (Wire.ofRef element ref name).id := by
  simp only [Edge.meets, Bool.and_eq_true, Bool.or_eq_true, beq_iff_eq] at meets
  rcases tie_cases within with ⟨w, asked, same⟩ | ⟨value, setter, -, -, same⟩
  · have ⟨source_held, target_held⟩ := Facts.held_of_mem_wires asked
    have held := (Inventory.housed_ofFacts f).elements listed
    have leaves : e.source.nodeId = w.source.id := congrArg Tie.source same
    have enters : e.target.nodeId = w.target.id := congrArg Tie.target same
    have label : e.label = w.label := congrArg Tie.label same
    rw [leaves, enters, label] at meets
    have ends : w.source = element ∨ w.target = element := by
      refine meets.2.imp (fun source => ?_) fun target => ?_
      · exact List.inj_on_of_nodup_map (Inventory.distinct_ofFacts f) source_held held source
      · exact List.inj_on_of_nodup_map (Inventory.distinct_ofFacts f) target_held held target
    have kind := (Inventory.sorted_ofFacts f).elements _ listed
    rw [← Wire.eq_ofRef_of_meets asked kind ends meets.1 found]
    exact congrArg Tie.id same
  · cases (congrArg Tie.label same).symm.trans meets.1

theorem bindsRef_ofFacts (counted : f.Counted) {e : Element} (listed : e ∈ f.elements) {h : Hook}
    (hook : h ∈ f.hooks) (kind : h.kind = .ref) {ref : Node}
    (found : (Inventory.ofFacts f).ref? h.name = some ref)
    (named : ref.id = NodeKind.independent.nodeId h.id) (bound : h.name ∈ e.props) :
    (ofFacts f).BindsRef (.element e.id) (.hook .independent h.id) h.name
      (h.name ∈ e.refProps) := by
  obtain ⟨a, element⟩ := (shows_ofFacts counted).once _ (.element listed)
  obtain ⟨b, target⟩ := (shows_ofFacts counted).once _ (.hook hook (by rw [kind]; rfl))
  have a_id : a.id = NodeKind.element.nodeId e.id := id_of_filter_subject? element
  have b_id : b.id = ref.id := (id_of_filter_subject? target).trans named.symm
  obtain ⟨index, drawn⟩ := counted.exists_elementNode listed
  have housed := Inventory.housed_ofFacts f
  have readable : ref.IsReadable := by
    refine isReadable_of_held counted (Inventory.mem_of_ref? housed found) ?_
    rw [Inventory.kind_of_ref? (Inventory.sorted_ofFacts f) found]
    decide
  have read : Tie.readMarkup? (Wire.ofRef (elementNode Columns.standard index e) ref h.name).id =
      some (Wire.ofRef (elementNode Columns.standard index e) ref h.name).tie :=
    Wire.readMarkup?_ofRef (isReadable_of_held counted (housed.elements drawn) ⟨nofun, nofun⟩)
      readable
  have asked := Wire.ofRef_mem drawn (by rwa [props_elementNode]) found
  obtain ⟨d, within, same⟩ := exists_edge_of_markup counted asked read
  have id : d.id = (Wire.ofRef (elementNode Columns.standard index e) ref h.name).id :=
    congrArg Tie.id same
  refine ⟨a, b, d, element, target, ?_, fun attached => ?_, fun unattached => ?_⟩
  · rw [← filter_key_eq (distinct_edges_ofFacts f) within]
    refine List.filter_congr fun c other => ?_
    rw [Bool.eq_iff_iff, beq_iff_eq, a_id]
    constructor
    · intro meets
      exact (id_eq_of_meets drawn found other meets).trans id.symm
    · intro equal
      rw [List.inj_on_of_nodup_map (distinct_edges_ofFacts f) other within equal]
      exact meets_of_tie_eq_ofRef same
  · rw [Wire.tie_ofRef_of_attached (by rwa [refProps_elementNode])] at same
    rw [a_id, b_id]
    exact ⟨congrArg Tie.kind same, congrArg Tie.source same, congrArg Tie.target same⟩
  · rw [Wire.tie_ofRef_of_unattached (by rwa [refProps_elementNode])] at same
    rw [a_id, b_id]
    exact ⟨congrArg Tie.kind same, congrArg Tie.source same, congrArg Tie.target same⟩

section Flow

theorem exists_flowEnds? {d : Edge} (within : d ∈ (ofFacts f).edges) (kind : d.kind = .flow) :
    (∃ e ∈ f.elements, flowEnds? e = some (d.source.nodeId, d.target.nodeId)) ∧
      d.id = wireId ["jsx-tree", d.source.nodeId, d.target.nodeId] := by
  rcases tie_cases within with ⟨w, asked, same⟩ | ⟨value, setter, -, -, same⟩
  · have id : d.id = w.id := congrArg Tie.id same
    have leaves : d.source.nodeId = w.source.id := congrArg Tie.source same
    have enters : d.target.nodeId = w.target.id := congrArg Tie.target same
    rw [id, leaves, enters]
    exact Wire.exists_flowEnds? asked ((congrArg Tie.kind same).symm.trans kind)
  · cases (congrArg Tie.kind same).symm.trans kind

theorem nodup_flows (f : Facts) : (((ofFacts f).edges.filter (·.kind == .flow)).map
    fun d => (d.source.nodeId, d.target.nodeId)).Nodup := by
  have distinct := distinct_edges_ofFacts f
  refine List.Nodup.map_on ?_ (distinct.of_map.filter _)
  intro c first d second same
  obtain ⟨within, kind⟩ := List.mem_filter.mp first
  obtain ⟨within', kind'⟩ := List.mem_filter.mp second
  obtain ⟨source, target⟩ := Prod.mk.inj same
  refine List.inj_on_of_nodup_map distinct within within' ?_
  rw [(exists_flowEnds? within (beq_iff_eq.mp kind)).2, source, target,
    (exists_flowEnds? within' (beq_iff_eq.mp kind')).2]

theorem nodup_flowEnds (nests : f.WellNested) : (f.elements.filterMap flowEnds?).Nodup := by
  refine List.Pairwise.filterMap flowEnds? ?_ (List.pairwise_map.mp nests.distinct)
  intro c d apart ends hangs ends' hangs' same
  obtain ⟨p, -, rfl⟩ := Option.map_eq_some_iff.mp hangs
  obtain ⟨q, -, rfl⟩ := Option.map_eq_some_iff.mp hangs'
  exact apart (NodeKind.nodeId_injective (Prod.mk.inj same).2)

theorem nests_ofFacts (counted : f.Counted) (nests : f.WellNested) : (ofFacts f).Nests f where
  nodes e listed := by
    obtain ⟨n, shown⟩ := (shows_ofFacts counted).once _ (.element listed)
    exact ⟨n, shown, id_of_filter_subject? shown⟩
  parents _ listed _ below := by
    obtain ⟨d, parent, named, -⟩ := nests.exists_parent listed below
    exact ⟨d, parent, named⟩
  edges := by
    refine (List.perm_ext_iff_of_nodup (nodup_flows f) (nodup_flowEnds nests)).mpr ?_
    rintro ⟨source, target⟩
    constructor
    · intro drawn
      obtain ⟨d, flows, ends⟩ := List.mem_map.mp drawn
      obtain ⟨within, kind⟩ := List.mem_filter.mp flows
      obtain ⟨e, listed, hangs⟩ := (exists_flowEnds? within (beq_iff_eq.mp kind)).1
      exact List.mem_filterMap.mpr ⟨e, listed, hangs.trans (congrArg some ends)⟩
    · intro asked
      obtain ⟨e, listed, hangs⟩ := List.mem_filterMap.mp asked
      obtain ⟨w, requested, read, kind, rfl, rfl⟩ := Wire.exists_flow counted nests listed hangs
      obtain ⟨d, within, same⟩ := exists_edge_of_markup counted requested read
      have flows : d.kind = .flow := (congrArg Tie.kind same).trans kind
      have source : d.source.nodeId = w.source.id := congrArg Tie.source same
      have target : d.target.nodeId = w.target.id := congrArg Tie.target same
      refine List.mem_map.mpr ⟨d, List.mem_filter.mpr ⟨within, beq_iff_eq.mpr flows⟩, ?_⟩
      rw [source, target]

end Flow

/-- From the markup to the picture: where an element binds the name of a ref, in an attribute or in
a container between its two tags, one edge meets its node under this name. It joins it with the node
of the first ref that is called so, and goes there if an attribute called `ref` binds the name. The
flow edges are one for each element with a parent. -/
theorem build_analyze_binds (parser : SyntaxParser) (source : RawText)
    (fileName : Option RawText) :
    (analyze parser source fileName = .error .cutCharacter ∧
      ∃ t ∈ Facts.reads (fileName.map RawText.clean) (parsed parser source fileName),
        t.isLegible = false) ∨
    ∃ facts, analyze parser source fileName = .ok facts ∧
      (∀ e ∈ facts.elements, ∃ t ∈ (parsed parser source fileName).parts, e.IsOf t) ∧
      ((build (some facts) = .error .tooLarge ∧
        ∃ e ∈ facts.elements, (Binary64.ofRat (e.depth * 160 : Int)).isFinite = false) ∨
      ∃ l, build (some facts) = .ok l ∧
        (∀ before h after, facts.hooks = before ++ h :: after → h.kind = .ref →
          (∀ g ∈ before, g.kind = .ref → g.name ≠ h.name) →
          ∀ e ∈ facts.elements, ∀ t, e.IsOf t → t.BindsName h.name →
            l.BindsRef (.element e.id) (.hook .independent h.id) h.name (t.AttachesRef h.name)) ∧
        l.Nests facts) := by
  cases analyzed : analyze parser source fileName with
  | error e => exact .inl ⟨rfl, exists_illegible_of_analyze analyzed⟩
  | ok facts =>
    have counted := Facts.counted_of_analyze analyzed
    have nests := Facts.wellNested_of_analyze analyzed
    refine .inr ⟨facts, rfl, Facts.exists_markup_of_element analyzed, ?_⟩
    refine (build_cases facts).imp id fun built => ⟨ofFacts facts, built, ?_, ?_⟩
    · intro before h after hooks kind first e listed t own bound
      obtain ⟨ref, found, named⟩ := counted.exists_ref? hooks kind first
      have hook : h ∈ facts.hooks := hooks ▸ List.mem_append_right before List.mem_cons_self
      rw [← own.mem_refProps]
      exact bindsRef_ofFacts counted listed hook kind found named ((own.mem_props _).mpr bound)
    · exact nests_ofFacts counted nests

/-- A component `F` with a ref `r` and with the elements `<div ref={r}>`, `<b x={r}/>` and
`<b {r}/>`. -/
def boundTree : Tree Span :=
  let hook := plainTree "variable_declarator" [
    childTree "identifier" "name" 2 3 [],
    childTree "call_expression" "value" 0 0 [childTree "identifier" "function" 4 10 []]]
  let container := plainTree "jsx_expression" [wordTree "identifier" 2 3]
  let given (start stop : Nat) := plainTree "jsx_attribute" [
    wordTree "property_identifier" start stop, container]
  let closed (part : Tree Span) := plainTree "jsx_self_closing_element" [
    childTree "identifier" "name" 19 20 [], part]
  let elements := plainTree "jsx_element" [
    childTree "jsx_opening_element" "open_tag" 0 0 [
      childTree "identifier" "name" 11 14 [], given 15 18],
    closed (given 21 22), closed container]
  plainTree "program" [plainTree "export_statement" [
    childTree "function_declaration" "declaration" 0 0 [
      childTree "identifier" "name" 0 1 [],
      childTree "statement_block" "body" 0 0 [hook, elements]]]]

def boundSource : RawText :=
  .ofString "F r useRef div ref b x"

def boundFacts : Facts :=
  .ofTree boundSource.clean none (boundTree.resolve boundSource.encode)

/-- Attaching the ref is a mutation of it, and reading it is a dependency. -/
theorem boundTree_binds :
    ∃ l, build (some boundFacts) = .ok l ∧ l.Nests boundFacts ∧
      l.BindsRef (.element "jsx-1") (.hook .independent "hook-1") "r" True ∧
      l.BindsRef (.element "jsx-2") (.hook .independent "hook-1") "r" False := by
  have analyzed : analyze (fun _ _ => boundTree) boundSource none = .ok boundFacts := by
    decide +kernel
  rcases build_analyze_binds (fun _ _ => boundTree) boundSource none with
    ⟨failed, -⟩ | ⟨facts, same, known, laid⟩
  · rw [analyzed] at failed
    cases failed
  · rw [analyzed] at same
    cases same
    rcases laid with ⟨-, e, listed, deep⟩ | ⟨l, built, binds, nests⟩
    · have near : ∀ e ∈ boundFacts.elements,
          (Binary64.ofRat (e.depth * 160 : Int)).isFinite = true := by decide +kernel
      rw [near e listed] at deep
      cases deep
    · obtain ⟨h, first, ref, name, id⟩ : ∃ h ∈ boundFacts.hooks.head?,
          h.kind = .ref ∧ h.name = "r" ∧ h.id = "hook-1" := by
        decide +kernel
      obtain ⟨after, hooks⟩ := List.head?_eq_some_iff.mp first
      have foremost : ∀ g ∈ ([] : List Hook), g.kind = .ref → g.name ≠ h.name :=
        fun g within => absurd within List.not_mem_nil
      have bound : ∀ e ∈ boundFacts.elements, "r" ∈ e.props →
          l.BindsRef (.element e.id) (.hook .independent "hook-1") "r" ("r" ∈ e.refProps) := by
        intro e listed within
        obtain ⟨t, -, own⟩ := known e listed
        have edge := binds [] h after hooks ref foremost e listed t own
          (name ▸ (own.mem_props "r").mp within)
        rw [← own.mem_refProps, name, id] at edge
        exact edge
      obtain ⟨d, attaching, props, refs, d_id⟩ : ∃ e ∈ boundFacts.elements,
          "r" ∈ e.props ∧ "r" ∈ e.refProps ∧ e.id = "jsx-1" := by
        decide +kernel
      obtain ⟨e, reading, props', refs', e_id⟩ : ∃ e ∈ boundFacts.elements,
          "r" ∈ e.props ∧ "r" ∉ e.refProps ∧ e.id = "jsx-2" := by
        decide +kernel
      have attached := bound d attaching props
      have read := bound e reading props'
      rw [d_id, eq_true refs] at attached
      rw [e_id, eq_false refs'] at read
      exact ⟨l, built, nests, attached, read⟩

/-- A container in a tag that closes itself is a child of the element, but no edge comes of it. -/
theorem boundTree_passes_over :
    ∃ l, analyze (fun _ _ => boundTree) boundSource none = .ok boundFacts ∧
      build (some boundFacts) = .ok l ∧
      (∃ h ∈ boundFacts.hooks, h.kind = .ref ∧ h.name = "r") ∧
      ∃ e ∈ boundFacts.elements, ∃ t ∈ (boundTree.resolve boundSource.encode).parts, e.IsOf t ∧
        (∃ container name, t.HasContainer container ∧ container.IsAbout name ∧ name.text = "r") ∧
        ∃ n ∈ l.nodes, n.subject? = some (.element e.id) ∧
          l.edges.filter (Edge.meets "r" n.id) = [] := by
  refine ⟨ofFacts boundFacts, by decide +kernel, build_eq_ok (by decide +kernel),
    by decide +kernel, ?_⟩
  obtain ⟨e, listed, t, part, own, within, n, drawn, subject, alone⟩ :
      ∃ e ∈ boundFacts.elements, ∃ t ∈ (boundTree.resolve boundSource.encode).parts,
        t.tagName?.map (Markup.ofNode t) = some (Markup.ofElement e) ∧
        (∃ container ∈ t.visibleChildren, container.kind = "jsx_expression" ∧
          container.boundIdentifier?.map Tree.text = some "r") ∧
        ∃ n ∈ (ofFacts boundFacts).nodes, n.subject? = some (.element e.id) ∧
          (ofFacts boundFacts).edges.filter (Edge.meets "r" n.id) = [] := by
    decide +kernel
  obtain ⟨tag, known, same⟩ := Option.map_eq_some_iff.mp own
  obtain ⟨container, child, contains, bound⟩ := within
  obtain ⟨name, about, spelled⟩ := Option.map_eq_some_iff.mp bound
  exact ⟨e, listed, t, part, ⟨tag, known, same.symm⟩, ⟨container, name, ⟨child, contains⟩,
    Tree.boundIdentifier?_eq_some_iff.mp about, spelled⟩, n, drawn, subject, alone⟩

end Layout

end Graph

end RenderFlow
