import RenderFlow.Proofs.Graph.Spelling

/-!
Everything that a builder is asked for while it draws a component, edges from unknown parents included.
Two requests with one id ask for the same edge where names are plain, so dropping the second one loses
nothing. Main statement: `Layout.build_keeps_relations`.
-/
namespace RenderFlow

open RenderFlow.Graph Text

namespace Graph

/-- An edge that is asked for. Its source may be unknown. -/
structure Asked where
  id : String
  source : Option Node
  target : Node
  kind : EdgeKind
  label : Option String

def Wire.asked (w : Wire) : Asked :=
  ⟨w.id, some w.source, w.target, w.kind, w.label⟩

namespace Asked

def ofNesting (v : Inventory) (element : Node) : Option Asked :=
  (element.infoText? "parent_id").map fun parentId =>
    ⟨wireId ["jsx-tree", parentId, element.id], v.builder.node? parentId, element, .flow, none⟩

def tie? (r : Asked) : Option Tie :=
  r.source.map fun source => ⟨r.id, source.id, r.target.id, r.kind, r.label⟩

end Asked

def Builder.ask (b : Builder) (r : Asked) : Builder :=
  (b.addEdge r.id r.source (some r.target) r.kind r.label).1

end Graph

def Facts.asked (f : Facts) : List Asked :=
  let v := Inventory.ofFacts f
  let named := Wire.ofSideEffects v f ++ f.locals.flatMap (Wire.ofVariable v)
    ++ v.elements.flatMap fun n => (n.infoTexts "props").filterMap (Wire.ofBoundName v n)
  named.map Wire.asked ++ v.elements.filterMap (Asked.ofNesting v)

namespace Graph

variable {f : Facts}

theorem Builder.foldl_ask_map (b : Builder) (wires : List Wire) :
    (wires.map Wire.asked).foldl ask b = b.addWires wires :=
  List.foldl_map

theorem Builder.foldl_ask_ofNesting (v : Inventory) (elements : List Node) (b : Builder) :
    (elements.filterMap (Asked.ofNesting v)).foldl ask b =
      b.addWires (elements.filterMap (Wire.ofNesting v)) := by
  induction elements generalizing b with
  | nil => rfl
  | cons n rest ih =>
    cases below : n.infoText? "parent_id" with
    | none =>
      have unasked : Asked.ofNesting v n = none := by rw [Asked.ofNesting, below, Option.map_none]
      have undrawn : Wire.ofNesting v n = none := by rw [Wire.ofNesting, below]; rfl
      rw [List.filterMap_cons_none unasked, List.filterMap_cons_none undrawn, ih]
    | some parentId =>
      have asked : Asked.ofNesting v n = some ⟨wireId ["jsx-tree", parentId, n.id],
          v.builder.node? parentId, n, .flow, none⟩ := by
        rw [Asked.ofNesting, below, Option.map_some]
      rw [List.filterMap_cons_some asked]
      cases found : v.builder.node? parentId with
      | none =>
        have undrawn : Wire.ofNesting v n = none := by
          rw [Wire.ofNesting, below, Option.bind_eq_bind, Option.bind_some, found]
          rfl
        rw [List.filterMap_cons_none undrawn]
        exact ih b
      | some parent =>
        have drawn : Wire.ofNesting v n =
            some ⟨wireId ["jsx-tree", parentId, n.id], parent, n, .flow, none⟩ := by
          rw [Wire.ofNesting, below, Option.bind_eq_bind, Option.bind_some, found]
          rfl
        rw [List.filterMap_cons_some drawn]
        exact ih _

theorem Builder.ofFacts_eq_foldl_ask (f : Facts) :
    Builder.ofFacts f = f.asked.foldl ask (Inventory.ofFacts f).builder := by
  rw [Facts.asked, List.foldl_append, foldl_ask_map, foldl_ask_ofNesting]
  unfold addWires Builder.ofFacts Wire.ofFacts Wire.ofElements
  simp only [addWires, List.foldl_append]

theorem Wire.asked_mem {w : Wire} (within : w ∈ f.wires) : w.asked ∈ f.asked := by
  simp only [Facts.wires, ofFacts, ofElements, List.mem_append] at within
  simp only [Facts.asked, List.map_append, List.mem_append]
  rcases within with (effect | derived) | bound | nesting
  · exact .inl (.inl (.inl (List.mem_map_of_mem effect)))
  · exact .inl (.inl (.inr (List.mem_map_of_mem derived)))
  · exact .inl (.inr (List.mem_map_of_mem bound))
  · obtain ⟨element, listed, drawn⟩ := List.mem_filterMap.mp nesting
    obtain ⟨id, below, drawn⟩ := Option.bind_eq_some_iff.mp drawn
    obtain ⟨parent, found, drawn⟩ := Option.bind_eq_some_iff.mp drawn
    refine .inr (List.mem_filterMap.mpr ⟨element, listed, ?_⟩)
    rw [Asked.ofNesting, below, Option.map_some, found, ← Option.some.inj drawn]
    rfl

theorem Asked.cases {r : Asked} (within : r ∈ f.asked) :
    (∃ w ∈ f.wires, r = w.asked) ∨
      ∃ element ∈ (Inventory.ofFacts f).elements, ∃ parentId,
        (Inventory.ofFacts f).builder.node? parentId = none ∧
          r = ⟨wireId ["jsx-tree", parentId, element.id], none, element, .flow, none⟩ := by
  rcases List.mem_append.mp within with named | nesting
  · obtain ⟨w, listed, rfl⟩ := List.mem_map.mp named
    refine .inl ⟨w, ?_, rfl⟩
    rw [Facts.wires, Wire.ofFacts, Wire.ofElements, ← List.append_assoc]
    exact List.mem_append_left _ listed
  · obtain ⟨element, listed, asked⟩ := List.mem_filterMap.mp nesting
    obtain ⟨parentId, below, rfl⟩ := Option.map_eq_some_iff.mp asked
    cases found : (Inventory.ofFacts f).builder.node? parentId with
    | none => exact .inr ⟨element, listed, parentId, found, rfl⟩
    | some parent =>
      refine .inl ⟨⟨wireId ["jsx-tree", parentId, element.id], parent, element, .flow, none⟩, ?_, rfl⟩
      have drawn : Wire.ofNesting (Inventory.ofFacts f) element =
          some ⟨wireId ["jsx-tree", parentId, element.id], parent, element, .flow, none⟩ := by
        rw [Wire.ofNesting, below, Option.bind_eq_bind, Option.bind_some, found]
        rfl
      simp only [Facts.wires, Wire.ofFacts, Wire.ofElements, List.mem_append]
      exact .inr (.inr (List.mem_filterMap.mpr ⟨element, listed, drawn⟩))

/-- The request is all that is read off its id. -/
structure Asked.IsReadAs (v : Inventory) (r : Asked) (t : Tie) : Prop where
  read : Tie.read? r.id = some t
  source : v.builder.node? t.source = r.source
  target : v.builder.node? t.target = some r.target
  kind : t.kind = r.kind
  label : t.label = r.label

theorem Inventory.node?_of_mem {n : Node} (held : n ∈ (Inventory.ofFacts f).builder.nodes) :
    (Inventory.ofFacts f).builder.node? n.id = some n := by
  cases found : (Inventory.ofFacts f).builder.node? n.id with
  | none => exact absurd (mem_nodeIds.mpr ⟨n, held, rfl⟩) (Builder.node?_eq_none_iff.mp found)
  | some m =>
    rw [List.inj_on_of_nodup_map (distinct_ofFacts f) (Builder.mem_of_node? found) held
      (Builder.id_of_node? found)]

theorem Asked.exists_isReadAs (plain : f.PlainlyNamed) {r : Asked} (within : r ∈ f.asked) :
    ∃ t, r.IsReadAs (Inventory.ofFacts f) t := by
  rcases Asked.cases within with ⟨w, asked, rfl⟩ | ⟨element, listed, parentId, unknown, rfl⟩
  · have ⟨leaves, enters⟩ := Facts.held_of_mem_wires asked
    exact ⟨w.tie, Tie.read?_of_wire plain asked, Inventory.node?_of_mem leaves,
      Inventory.node?_of_mem enters, rfl, rfl⟩
  · have held := (Inventory.housed_ofFacts f).elements listed
    exact ⟨_, Tie.read?_nesting parentId (Inventory.length_parts_element plain listed), unknown,
      Inventory.node?_of_mem held, rfl, rfl⟩

/-- Requests are told by their ids. -/
theorem Asked.eq_of_id_eq (plain : f.PlainlyNamed) {r s : Asked} (left : r ∈ f.asked)
    (right : s ∈ f.asked) (same : r.id = s.id) : r = s := by
  obtain ⟨t, reads⟩ := exists_isReadAs plain left
  obtain ⟨u, reads'⟩ := exists_isReadAs plain right
  have equal : t = u := by
    have read := reads.read
    rw [same, reads'.read] at read
    exact (Option.some.inj read).symm
  subst equal
  cases r
  cases s
  congr
  · exact reads.source.symm.trans reads'.source
  · exact Option.some.inj (reads.target.symm.trans reads'.target)
  · exact reads.kind.symm.trans reads'.kind
  · exact reads.label.symm.trans reads'.label

namespace Layout

theorem link_id_ne {w : Wire} (asked : w ∈ f.wires) (value setter : String) :
    (Tie.link value setter).id ≠ w.id := by
  have other {scheme : String} {rest : List String} (named : w.id = wireId (scheme :: rest))
      (begins : ∃ start more, hyphenParts scheme = start :: more ∧ start ≠ "link") :
      (Tie.link value setter).id ≠ w.id := by
    obtain ⟨start, more, parts, different⟩ := begins
    intro same
    rw [named, Tie.id_link] at same
    have read := congrArg hyphenParts same
    rw [hyphenParts_wireId (by simp), hyphenParts_wireId (by simp)] at read
    simp only [List.flatMap_cons, parts] at read
    exact different (List.cons.inj read).1.symm
  cases Wire.drawn_of_mem asked <;> exact other rfl ⟨_, _, rfl, by decide⟩

theorem kind_ne_link {w : Wire} (asked : w ∈ f.wires) : w.kind ≠ .link := by
  cases Wire.drawn_of_mem asked <;> exact nofun

theorem tie_eq_of_id_eq (plain : f.PlainlyNamed) {w : Wire} (asked : w ∈ f.wires) {e : Edge}
    (within : e ∈ (ofFacts f).edges) (named : e.id = w.id) : e.tie = w.tie := by
  rcases tie_cases within with ⟨other, asked', same⟩ | ⟨value, setter, -, -, same⟩
  · have ids : other.id = w.id := (congrArg Tie.id same).symm.trans named
    have equal := Asked.eq_of_id_eq plain (Wire.asked_mem asked') (Wire.asked_mem asked) ids
    have tied : some other.tie = some w.tie := congrArg Asked.tie? equal
    rw [same, Option.some.inj tied]
  · have ids : (Tie.link value setter).id = w.id := (congrArg Tie.id same).symm.trans named
    exact absurd ids (link_id_ne asked value setter)

theorem exists_wire_of_tie? {r : Asked} (within : r ∈ f.asked) {t : Tie} (known : r.tie? = some t) :
    ∃ w ∈ f.wires, w.id = r.id ∧ w.tie = t := by
  rcases Asked.cases within with ⟨w, asked, rfl⟩ | ⟨element, listed, parentId, unknown, rfl⟩
  · exact ⟨w, asked, rfl, Option.some.inj known⟩
  · cases known

/-- Where records are numbered and no name holds a hyphen, the requests of one run that have the same
id are the same. So a layout has exactly one edge for every request between nodes that it knows, which
says what was asked for, and but for links it has no others. -/
theorem build_keeps_relations (plain : f.PlainlyNamed) :
    Builder.ofFacts f = f.asked.foldl Builder.ask (Inventory.ofFacts f).builder ∧
    (∀ r ∈ f.asked, ∀ s ∈ f.asked, r.id = s.id → r = s) ∧
    ((build (some f) = .error .tooLarge ∧
      ∃ e ∈ f.elements, (Binary64.ofRat (e.depth * 160 : Int)).isFinite = false) ∨
    ∃ l, build (some f) = .ok l ∧
      (∀ r ∈ f.asked, ∀ t, r.tie? = some t →
        ∃ e, l.edges.filter (·.id == r.id) = [e] ∧ e.tie = t) ∧
      ∀ t, (∃ e ∈ l.edges, e.kind ≠ .link ∧ e.tie = t) ↔ ∃ r ∈ f.asked, r.tie? = some t) := by
  refine ⟨Builder.ofFacts_eq_foldl_ask f, fun r left s right => Asked.eq_of_id_eq plain left right,
    (build_cases f).imp id ?_⟩
  intro built
  refine ⟨ofFacts f, built, ?_, ?_⟩
  · intro r within t known
    obtain ⟨w, asked, ids, rfl⟩ := exists_wire_of_tie? within known
    obtain ⟨e, drawn, named⟩ := exists_edge_of_wire asked
    refine ⟨e, ?_, tie_eq_of_id_eq plain asked drawn named⟩
    rw [← ids, ← named]
    exact filter_key_eq (distinct_edges_ofFacts f) drawn
  · intro t
    constructor
    · rintro ⟨e, drawn, unlinked, rfl⟩
      rcases tie_cases drawn with ⟨w, asked, same⟩ | ⟨value, setter, -, -, same⟩
      · exact ⟨w.asked, Wire.asked_mem asked, congrArg some same.symm⟩
      · exact absurd (congrArg Tie.kind same) unlinked
    · rintro ⟨r, within, known⟩
      obtain ⟨w, asked, -, rfl⟩ := exists_wire_of_tie? within known
      obtain ⟨e, drawn, named⟩ := exists_edge_of_wire asked
      have same := tie_eq_of_id_eq plain asked drawn named
      have kind : e.kind = w.kind := congrArg Tie.kind same
      exact ⟨e, drawn, kind ▸ kind_ne_link asked, same⟩

/-- A component whose names are words that ids are made of. -/
def echoing : Facts where
  source := ""
  props := ["prop"]
  hooks := [⟨"hook-1", "count", .localState, .component, none, {}⟩,
    ⟨"hook-2", "ref", .ref, .component, none, {}⟩]
  effects := [⟨"effect-1", .effect, [⟨"ref", false⟩, ⟨"count", false⟩], ["setCount"], ["ref"], [],
    ["fetch"], none⟩]
  elements := [⟨"jsx-1", "p", 0, none, ["ref", "prop"], ["ref"], none⟩,
    ⟨"jsx-2", "b", 1, some "jsx-1", ["count"], [], none⟩]

theorem echoing_plainlyNamed : echoing.PlainlyNamed where
  hooks := List.forall_mem_cons.mpr ⟨⟨1, rfl⟩, List.forall_mem_singleton.mpr ⟨2, rfl⟩⟩
  effects := List.forall_mem_singleton.mpr ⟨1, rfl⟩
  callbacks := nofun
  locals := nofun
  elements := List.forall_mem_cons.mpr ⟨⟨1, rfl⟩, List.forall_mem_singleton.mpr ⟨2, rfl⟩⟩
  propNames := by decide
  effectNames := by decide
  callbackNames := nofun
  localNames := nofun
  elementNames := by decide

theorem echoing_keeps_relations :
    echoing.PlainlyNamed ∧ ∃ l, build (some echoing) = .ok l ∧
      ∀ r ∈ echoing.asked, ∀ t, r.tie? = some t →
        ∃ e, l.edges.filter (·.id == r.id) = [e] ∧ e.tie = t := by
  refine ⟨echoing_plainlyNamed, ?_⟩
  rcases (build_keeps_relations echoing_plainlyNamed).2.2 with ⟨-, e, listed, deep⟩ | ⟨l, built, kept, -⟩
  · have near : ∀ e ∈ echoing.elements,
        (Binary64.ofRat (e.depth * 160 : Int)).isFinite = true := by decide +kernel
    rw [near e listed] at deep
    cases deep
  · exact ⟨l, built, kept⟩

end Layout

end Graph

end RenderFlow
