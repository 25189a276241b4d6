import RenderFlow.Proofs.Graph.Lookup
import RenderFlow.Proofs.Hook.Setters

/-!
From the call of a setter to its edge. The setter is found in the body of an effect or callback, its
name leads back to the state, and of all edges exactly one says so. Main statement:
`Layout.build_analyze_traces`.
-/
namespace RenderFlow

open RenderFlow.Graph Text

theorem HookKind.column?_of_isState {kind : HookKind} (holds : kind.isState) :
    kind.column? = some .state := by
  cases kind <;> first
    | rfl
    | cases holds

theorem Effect.IsOf.mem_setters {e : Effect} {call : SyntaxNode} {setter : String}
    (made : e.IsOf call) (called : call.HandsOver setter) (named : Callee.isSetterName setter) :
    setter ∈ e.setters := by
  obtain ⟨known, same⟩ := made
  rw [same]
  exact BodyScan.mem_setters true called named

theorem Callback.IsOf.mem_setters {c : Callback} {call : Placed} {setter : String}
    (made : c.IsOf call) (called : call.node.HandsOver setter)
    (named : Callee.isSetterName setter) : setter ∈ c.setters := by
  rw [made]
  exact BodyScan.mem_setters false called named

namespace Facts

section Calls

variable {parser : SyntaxParser} {source : RawText} {fileName : Option RawText} {facts : Facts}

theorem calls_cases (analyzed : analyze parser source fileName = .ok facts) :
    (∃ imports component body, body ∈ (parsed parser source fileName).parts ∧
      facts.effects = (Declarations.collect imports [] ⟨body, some component⟩).effects ∧
      facts.callbacks = (Declarations.collect imports [] ⟨body, some component⟩).callbacks) ∨
    facts.effects = [] ∧ facts.callbacks = [] := by
  rcases analyze_eq_ok_cases analyzed with rfl | ⟨e, rfl⟩
  · rcases ofTree_cases source.clean (fileName.map RawText.clean) (parsed parser source fileName)
      with ⟨name, component, body, found, same⟩ | same
    · rw [same]
      exact .inl ⟨_, component, body, (Tree.mem_parts_of_componentBody? found).2, rfl, rfl⟩
    · rw [same]
      exact .inr ⟨rfl, rfl⟩
  · exact .inr ⟨rfl, rfl⟩

theorem exists_call_of_effect (analyzed : analyze parser source fileName = .ok facts) :
    ∀ e ∈ facts.effects, ∃ call ∈ (parsed parser source fileName).parts, e.IsOf call := by
  intro e record
  rcases calls_cases analyzed with ⟨imports, component, body, inside, effects, -⟩ | ⟨none, -⟩
  · rw [effects] at record
    obtain ⟨p, walked, kind, -, number, known, rfl⟩ := Declarations.exists_of_mem_effects record
    have part := body.walk_subset_parts (Placed.node_mem_walk walked)
    exact ⟨p.node, Tree.parts_trans _ inside part, known, rfl⟩
  · rw [none] at record
    cases record

theorem exists_call_of_callback (analyzed : analyze parser source fileName = .ok facts) :
    ∀ c ∈ facts.callbacks, ∃ call : Placed,
      call.node ∈ (parsed parser source fileName).parts ∧ c.IsOf call := by
  intro c record
  rcases calls_cases analyzed with ⟨imports, component, body, inside, -, callbacks⟩ | ⟨-, none⟩
  · rw [callbacks] at record
    obtain ⟨p, walked, -, number, rfl⟩ := Declarations.exists_of_mem_callbacks record
    have part := body.walk_subset_parts (Placed.node_mem_walk walked)
    exact ⟨p, Tree.parts_trans _ inside part, rfl⟩
  · rw [none] at record
    cases record

end Calls

end Facts

namespace Graph

def Subject.scheme? : Subject → Option String
  | .effect _ => some "mut"
  | .callback _ => some "cb-mut"
  | _ => none

def Edge.sets (setter source target : String) (e : Edge) : Bool :=
  e.kind == .mutation && e.label == some setter && e.source.nodeId == source
    && e.target.nodeId == target

/-- One edge says that a subject sets another one, between the only nodes of the two. -/
def Layout.DrawsOnce (l : Layout) (source target : Subject) (setter : String) : Prop :=
  ∃ a b e, l.nodes.filter (·.subject? == some source) = [a] ∧
    l.nodes.filter (·.subject? == some target) = [b] ∧
    l.edges.filter (Edge.sets setter a.id b.id) = [e]

def spellsSetting : List String → Bool
  | "mut" :: "effect" :: _ => true
  | "cb" :: "mut" :: _ => true
  | _ => false

/-- Ids of one scheme between readable nodes differ in a node or in the name. -/
theorem eq_of_wireId_eq {scheme name name' : String} {a b a' b' : Node} (leaves : a.IsReadable)
    (enters : b.IsReadable) (leaves' : a'.IsReadable) (enters' : b'.IsReadable)
    (same : wireId [scheme, a.id, b.id, name] = wireId [scheme, a'.id, b'.id, name']) :
    a.id = a'.id ∧ b.id = b'.id ∧ name = name' := by
  have parts := congrArg hyphenParts same
  rw [Tie.hyphenParts_named, Tie.hyphenParts_named] at parts
  have sources := congrArg readNode? (List.append_cancel_left parts)
  rw [leaves, leaves', Option.some.injEq, Prod.mk.injEq] at sources
  have targets := congrArg readNode? sources.2
  rw [enters, enters', Option.some.injEq, Prod.mk.injEq] at targets
  have names := congrArg wireId targets.2
  rw [wireId_hyphenParts, wireId_hyphenParts] at names
  exact ⟨sources.1, targets.1, names⟩

structure Wire.IsSetting (f : Facts) (w : Wire) (s : Subject) (scheme setter : String) : Prop where
  declared : f.Declares s
  known : s.scheme? = some scheme
  source : w.source.id = s.nodeId
  target : w.target.kind = .state
  kind : w.kind = .mutation
  label : w.label = some setter
  id : w.id = wireId [scheme, w.source.id, w.target.id, setter]

namespace Subject

variable {f : Facts} {s t : Subject} {scheme scheme' : String}

theorem kind_of_scheme? (known : s.scheme? = some scheme) : s.kind = .sideEffect := by
  cases s <;> cases known <;> rfl

theorem spellsSetting_of_scheme? (known : s.scheme? = some scheme) (rest : List String) :
    spellsSetting (hyphenParts (wireId (scheme :: s.nodeId :: rest))) := by
  rw [hyphenParts_wireId (by simp), List.flatMap_cons, List.flatMap_cons, nodeId,
    NodeKind.hyphenParts_nodeId, kind_of_scheme? known]
  cases s <;> cases known <;> rfl

theorem isReadable_of_scheme? (counted : f.Counted) (known : s.scheme? = some scheme) {n : Node}
    (held : n ∈ (Inventory.ofFacts f).builder.nodes) (named : n.id = s.nodeId) : n.IsReadable := by
  refine Layout.isReadable_of_held counted held ?_
  rw [(Inventory.spelled_ofFacts held).kind_eq named, kind_of_scheme? known]
  decide

theorem scheme_eq_of_parts (known : s.scheme? = some scheme) (known' : t.scheme? = some scheme')
    {rest rest' : List String}
    (same : hyphenParts scheme ++ rest = hyphenParts scheme' ++ rest') : scheme = scheme' := by
  have heads := congrArg List.head? same
  cases s <;> cases known <;> cases t <;> cases known' <;> first
    | rfl
    | exact absurd (Option.some.inj heads : "mut" = "cb") (by decide)
    | exact absurd (Option.some.inj heads : "cb" = "mut") (by decide)

end Subject

namespace Wire

variable {f : Facts} {w : Wire}

theorem setting_cases (asked : w ∈ f.wires) :
    (∃ s scheme setter, w.IsSetting f s scheme setter) ∨
      (w.kind = .mutation → w.target.kind ≠ .state) ∧ spellsSetting (hyphenParts w.id) = false := by
  have sorted := Inventory.sorted_ofFacts f
  -- The parts that tell the schemes are those of the scheme itself.
  have spelled {scheme : String} {rest : List String} {id : String}
      (other : ∀ more, spellsSetting (hyphenParts scheme ++ more) = false)
      (same : id = wireId (scheme :: rest)) : spellsSetting (hyphenParts id) = false := by
    rw [same, hyphenParts_wireId (by simp), List.flatMap_cons]
    exact other _
  cases Wire.drawn_of_mem asked with
  | @effectSetter e setter node state record source _ found =>
    exact .inl ⟨.effect e.id, "mut", setter, .effect record, rfl, Builder.id_of_node? source,
      sorted.states _ (List.mem_of_find?_eq_some found), rfl, rfl, rfl⟩
  | @callbackSetter c setter node state record source _ found =>
    exact .inl ⟨.callback c.id, "cb-mut", setter, .callback record, rfl,
      Builder.id_of_node? source, sorted.states _ (List.mem_of_find?_eq_some found), rfl, rfl, rfl⟩
  | refWrite _ _ _ found | refAttachment _ _ found _ =>
    refine .inr ⟨fun _ state => ?_, spelled (fun _ => rfl) rfl⟩
    rw [Inventory.kind_of_ref? sorted found] at state
    cases state
  | effectDependency | refRead | callbackDependency | effectCall | callbackCall | variableRead
  | refUse | stateUse | propUse | variableUse | nesting =>
    exact .inr ⟨nofun, spelled (fun _ => rfl) rfl⟩

end Wire

namespace Layout

variable {f : Facts} {s : Subject} {scheme setter : String} {state : Node}

theorem isReadable_of_state (counted : f.Counted)
    (held : state ∈ (Inventory.ofFacts f).builder.nodes) (kind : state.kind = .state) :
    state.IsReadable := by
  refine isReadable_of_held counted held ?_
  rw [kind]
  decide

/-- What a setting wire says is what its id spells. -/
theorem id_eq_iff_of_isSetting (counted : f.Counted) (declared : f.Declares s)
    (known : s.scheme? = some scheme) (held : state ∈ (Inventory.ofFacts f).builder.nodes)
    (kind : state.kind = .state) {w : Wire} (asked : w ∈ f.wires) {t : Subject}
    {scheme' setter' : String} (setting : w.IsSetting f t scheme' setter') :
    w.id = wireId [scheme, s.nodeId, state.id, setter] ↔
      setter' = setter ∧ w.source.id = s.nodeId ∧ w.target.id = state.id := by
  rw [setting.id]
  constructor
  · intro equal
    have ⟨source_held, target_held⟩ := Facts.held_of_mem_wires asked
    obtain ⟨node, node_held, named⟩ :=
      mem_nodeIds.mp (Inventory.held_of_requested (nodeId_mem_requestedNodes declared))
    rw [← named] at equal ⊢
    have parts := congrArg hyphenParts equal
    rw [Tie.hyphenParts_named, Tie.hyphenParts_named] at parts
    rw [Subject.scheme_eq_of_parts setting.known known parts] at equal
    obtain ⟨source, target, label⟩ := eq_of_wireId_eq
      (Subject.isReadable_of_scheme? counted setting.known source_held setting.source)
      (isReadable_of_state counted target_held setting.target)
      (Subject.isReadable_of_scheme? counted known node_held named)
      (isReadable_of_state counted held kind) equal
    exact ⟨label, source, target⟩
  · rintro ⟨rfl, source, target⟩
    obtain rfl := setting.declared.eq_of_nodeId_eq counted declared (setting.source.symm.trans source)
    rw [Option.some.inj (setting.known.symm.trans known), source, target]

theorem sets_iff (counted : f.Counted) (declared : f.Declares s) (known : s.scheme? = some scheme)
    (held : state ∈ (Inventory.ofFacts f).builder.nodes) (kind : state.kind = .state) {e : Edge}
    (within : e ∈ (ofFacts f).edges) :
    e.sets setter s.nodeId state.id ↔ e.id = wireId [scheme, s.nodeId, state.id, setter] := by
  have spelled := Subject.spellsSetting_of_scheme? known [state.id, setter]
  simp only [Edge.sets, Bool.and_eq_true, beq_iff_eq]
  rcases tie_cases within with ⟨w, asked, same⟩ | ⟨value, other, -, -, same⟩
  · have id : e.id = w.id := congrArg Tie.id same
    have mutates : e.kind = w.kind := congrArg Tie.kind same
    have label : e.label = w.label := congrArg Tie.label same
    have leaves : e.source.nodeId = w.source.id := congrArg Tie.source same
    have enters : e.target.nodeId = w.target.id := congrArg Tie.target same
    rw [id, mutates, label, leaves, enters]
    rcases Wire.setting_cases asked with ⟨t, scheme', setter', setting⟩ | ⟨unsaid, unspelled⟩
    · rw [id_eq_iff_of_isSetting counted declared known held kind asked setting, setting.kind,
        setting.label, Option.some.injEq]
      simp [and_assoc]
    · constructor
      · rintro ⟨⟨⟨mutation, -⟩, -⟩, target⟩
        have one : w.target = state := List.inj_on_of_nodup_map (Inventory.distinct_ofFacts f)
          (Facts.held_of_mem_wires asked).2 held target
        exact absurd (one ▸ kind) (unsaid mutation)
      · intro equal
        rw [equal, spelled] at unspelled
        cases unspelled
  · constructor
    · rintro ⟨⟨⟨mutation, -⟩, -⟩, -⟩
      cases (congrArg Tie.kind same).symm.trans mutation
    · intro equal
      have joined : e.id = wireId ["link", value, other] :=
        (congrArg Tie.id same).trans (Tie.id_link value other)
      rw [← equal, joined, hyphenParts_wireId (by simp)] at spelled
      cases spelled

theorem id_of_filter_subject? {n : Node}
    (one : (ofFacts f).nodes.filter (·.subject? == some s) = [n]) : n.id = s.nodeId := by
  have found : n ∈ (ofFacts f).nodes.filter (·.subject? == some s) := by
    rw [one]
    exact List.mem_singleton_self n
  obtain ⟨within, subject⟩ := List.mem_filter.mp found
  obtain ⟨t, -, own, named⟩ := exists_subject_of_mem within
  rw [own, beq_iff_eq] at subject
  rw [named, Option.some.inj subject]

/-- A wire by which a subject sets a state leaves one edge that says so. -/
theorem drawsOnce_of_wire (counted : f.Counted) (declared : f.Declares s)
    (known : s.scheme? = some scheme) {h : Hook} (listed : h ∈ f.hooks)
    (column : h.kind.column? = some .state)
    (found : (Inventory.ofFacts f).state? (Callee.stateName setter) = some state)
    (named : state.id = NodeKind.state.nodeId h.id)
    (asked : ∃ w ∈ f.wires, w.id = wireId [scheme, s.nodeId, state.id, setter]) :
    (ofFacts f).DrawsOnce s (.hook .state h.id) setter := by
  obtain ⟨a, source⟩ := (shows_ofFacts counted).once s declared
  obtain ⟨b, target⟩ := (shows_ofFacts counted).once _ (.hook listed column)
  obtain ⟨w, drawn, id⟩ := asked
  obtain ⟨e, within, same⟩ := exists_edge_of_wire drawn
  refine ⟨a, b, e, source, target, ?_⟩
  have held := Inventory.mem_of_state? (Inventory.housed_ofFacts f) found
  have kind := (Inventory.sorted_ofFacts f).states _ (List.mem_of_find?_eq_some found)
  have ends : a.id = s.nodeId ∧ b.id = state.id :=
    ⟨id_of_filter_subject? source, (id_of_filter_subject? target).trans named.symm⟩
  rw [← filter_key_eq (distinct_edges_ofFacts f) within, ends.1, ends.2]
  refine List.filter_congr fun d other => ?_
  rw [Bool.eq_iff_iff, sets_iff counted declared known held kind other, beq_iff_eq, same, id]

theorem exists_state?_of_setterName (counted : f.Counted) {before after : List Hook} {h : Hook}
    (hooks : f.hooks = before ++ h :: after) (holds : h.kind.isState)
    (spoken : Callee.IsSpoken h.name)
    (first : ∀ g ∈ before, g.kind.isState → hasPrefix g.name h.name = false) :
    ∃ n, (Inventory.ofFacts f).state? (Callee.stateName (Callee.setterName h.name)) = some n ∧
      n.id = NodeKind.state.nodeId h.id := by
  rw [Callee.stateName_setterName spoken]
  have starts : hasPrefix h.name h.name := hasPrefix_iff.mpr List.prefix_rfl
  exact counted.exists_state? hooks holds spoken.blankless starts first

/-- From the source to the picture: where an effect or a callback is handed a function that calls the
setter of a state, one edge goes from its node to that of the state and says so, unless the name of an
earlier state starts with that of this one. -/
theorem build_analyze_traces (parser : SyntaxParser) (source : RawText)
    (fileName : Option RawText) :
    (analyze parser source fileName = .error .cutCharacter ∧
      ∃ t ∈ Facts.reads (fileName.map RawText.clean) (parsed parser source fileName),
        t.isLegible = false) ∨
    ∃ facts, analyze parser source fileName = .ok facts ∧
      (∀ e ∈ facts.effects, ∃ call ∈ (parsed parser source fileName).parts, e.IsOf call) ∧
      (∀ c ∈ facts.callbacks, ∃ call : Placed,
        call.node ∈ (parsed parser source fileName).parts ∧ c.IsOf call) ∧
      ((build (some facts) = .error .tooLarge ∧
        ∃ e ∈ facts.elements, (Binary64.ofRat (e.depth * 160 : Int)).isFinite = false) ∨
      ∃ l, build (some facts) = .ok l ∧
        ∀ before h after, facts.hooks = before ++ h :: after → h.kind.isState →
          Callee.IsSpoken h.name →
          (∀ g ∈ before, g.kind.isState → hasPrefix g.name h.name = false) →
          (∀ e ∈ facts.effects, ∀ call, e.IsOf call → call.HandsOver (Callee.setterName h.name) →
            l.DrawsOnce (.effect e.id) (.hook .state h.id) (Callee.setterName h.name)) ∧
          ∀ c ∈ facts.callbacks, ∀ call : Placed, c.IsOf call →
            call.node.HandsOver (Callee.setterName h.name) →
            l.DrawsOnce (.callback c.id) (.hook .state h.id) (Callee.setterName h.name)) := by
  cases analyzed : analyze parser source fileName with
  | error e => exact .inl ⟨rfl, exists_illegible_of_analyze analyzed⟩
  | ok facts =>
    have counted := Facts.counted_of_analyze analyzed
    refine .inr ⟨facts, rfl, Facts.exists_call_of_effect analyzed,
      Facts.exists_call_of_callback analyzed, ?_⟩
    refine (build_cases facts).imp id fun built => ⟨ofFacts facts, built, ?_⟩
    intro before h after hooks holds spoken first
    obtain ⟨state, found, named⟩ := exists_state?_of_setterName counted hooks holds spoken first
    have listed : h ∈ facts.hooks := hooks ▸ List.mem_append_right before List.mem_cons_self
    have setter := Callee.isSetterName_setterName spoken
    constructor
    · intro e record call made called
      have within := made.mem_setters called setter
      exact drawsOnce_of_wire counted (.effect record) rfl listed (HookKind.column?_of_isState holds)
        found named (Wire.exists_effectSetter record within found)
    · intro c record call made called
      have within := made.mem_setters called setter
      exact drawsOnce_of_wire counted (.callback record) rfl listed
        (HookKind.column?_of_isState holds) found named
        (Wire.exists_callbackSetter record within found)

theorem tracedTree_traces :
    ∃ e ∈ tracedFacts.effects, ∃ call ∈ (tracedTree.resolve tracedSource.encode).parts,
      e.IsOf call ∧ call.HandsOver (Callee.setterName "n") ∧
      ∃ l, build (some tracedFacts) = .ok l ∧
        l.DrawsOnce (.effect e.id) (.hook .state "hook-1") "setN" := by
  have analyzed : analyze (fun _ _ => tracedTree) tracedSource none = .ok tracedFacts := by
    decide +kernel
  obtain ⟨e, record, call, part, made, called⟩ : ∃ e ∈ tracedFacts.effects,
      ∃ call ∈ (tracedTree.resolve tracedSource.encode).parts,
        e = Effect.ofCall e.id e.kind [] call ∧ call.HandsOver (Callee.setterName "n") := by
    decide +kernel
  refine ⟨e, record, call, part, ⟨[], made⟩, called, ?_⟩
  rcases build_analyze_traces (fun _ _ => tracedTree) tracedSource none with
    ⟨failed, -⟩ | ⟨facts, same, -, -, laid⟩
  · rw [analyzed] at failed
    cases failed
  · rw [analyzed] at same
    cases same
    rcases laid with ⟨-, e, listed, -⟩ | ⟨l, built, traced⟩
    · have none_listed : tracedFacts.elements = [] := by decide +kernel
      rw [none_listed] at listed
      cases listed
    · obtain ⟨h, first, holds, name, id⟩ : ∃ h ∈ tracedFacts.hooks.head?,
          h.kind.isState ∧ h.name = "n" ∧ h.id = "hook-1" := by
        decide +kernel
      obtain ⟨after, hooks⟩ := List.head?_eq_some_iff.mp first
      have spoken : Callee.IsSpoken h.name := by
        rw [name]
        exact ⟨⟨'n', rfl, rfl⟩, by decide, by decide, by decide⟩
      rw [← name] at called
      have foremost : ∀ g ∈ ([] : List Hook), g.kind.isState → hasPrefix g.name h.name = false :=
        fun g within => absurd within List.not_mem_nil
      have edge := (traced [] h after hooks holds spoken foremost).1 e record call ⟨[], made⟩ called
      rw [name, id] at edge
      exact ⟨l, built, edge⟩

end Layout

end Graph

end RenderFlow
