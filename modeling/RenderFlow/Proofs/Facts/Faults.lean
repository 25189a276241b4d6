import RenderFlow.Graph.Assembly
import RenderFlow.Proofs.Facts.Origin
import RenderFlow.Proofs.Syntax.Reach

/-!
Sources with syntax errors. The search for a fault passes over what is not marked as damaged; where
the marks can be relied on it passes over no fault, so it finds the first of all in document order
(`Tree.checked_resolve`). The facts are then that one error and nothing else. Main statement:
`analyze_firstFault`.
-/
namespace RenderFlow

theorem map_find?_of_map_eq {α β γ : Type} {p : α → Bool} {q : β → Bool} {f : α → γ} {g : β → γ}
    {as : List α} {bs : List β} (same : as.map (fun a => (p a, f a)) = bs.map fun b => (q b, g b)) :
    (as.find? p).map f = (bs.find? q).map g := by
  have found : ((as.map fun a => (p a, f a)).find? Prod.fst).map Prod.snd =
      ((bs.map fun b => (q b, g b)).find? Prod.fst).map Prod.snd := by rw [same]
  rwa [List.find?_map, List.find?_map, Option.map_map, Option.map_map] at found

def Span.isFault (s : Span) : Bool :=
  s.kind == "ERROR" || s.missing

namespace Tree

/-- Every error node is marked as damaged, and every node with a fault below it is. -/
structure MarksFaults (tree : Tree Span) : Prop where
  errors : ∀ t ∈ tree.parts, t.label.kind = "ERROR" → t.label.damaged = true
  above : ∀ t ∈ tree.parts, ∀ s ∈ partsAll t.children, s.label.isFault = true →
    t.label.damaged = true

instance (tree : Tree Span) : Decidable tree.MarksFaults :=
  decidable_of_iff ((∀ t ∈ tree.parts, t.label.kind = "ERROR" → t.label.damaged = true) ∧
      ∀ t ∈ tree.parts, ∀ s ∈ partsAll t.children, s.label.isFault = true → t.label.damaged = true)
    ⟨fun parts => ⟨parts.1, parts.2⟩, fun marks => ⟨marks.errors, marks.above⟩⟩

/-- The first fault of the whole tree in document order, or else its root. -/
def faultSpan (tree : Tree Span) : Span :=
  ((tree.parts.map label).find? (·.isFault)).getD tree.label

def ShowsFaults (t : SyntaxNode) : Prop :=
  ∀ c ∈ t.parts, ∀ s ∈ c.parts, s.isFault = true → (c.label.damaged || c.label.missing) = true

theorem ShowsFaults.of_child {t c : SyntaxNode} (shows : t.ShowsFaults) (child : c ∈ t.children) :
    c.ShowsFaults :=
  fun d below => shows d (parts_subset_of_child child below)

theorem find?_partsAll_filter {p : SyntaxNode → Bool} {ts : List SyntaxNode}
    (sound : ∀ c ∈ ts, ∀ s ∈ c.parts, s.isFault = true → p c = true) :
    (partsAll (ts.filter p)).find? isFault = (partsAll ts).find? isFault := by
  induction ts with
  | nil => rfl
  | cons c rest ih =>
    obtain ⟨first, others⟩ := List.forall_mem_cons.mp sound
    rw [partsAll, List.find?_append, ← ih others]
    by_cases searched : p c = true
    · rw [List.filter_cons_of_pos searched, partsAll, List.find?_append]
    · have none_here : c.parts.find? isFault = none :=
        List.find?_eq_none.mpr fun s within fault => searched (first s within fault)
      rw [List.filter_cons_of_neg searched, none_here, Option.none_or]

/-- The search with its stack goes through all nodes in document order. -/
theorem firstFault?_eq_find? {stack : List SyntaxNode} (shows : ∀ t ∈ stack, t.ShowsFaults) :
    firstFault? stack = (partsAll stack).find? isFault := by
  fun_induction firstFault? stack with
  | case1 => rfl
  | case2 t rest fault =>
    rw [partsAll, parts_eq, List.cons_append, List.find?_cons_of_pos fault]
  | case3 t rest sound ih =>
    obtain ⟨first, others⟩ := List.forall_mem_cons.mp shows
    have below : ∀ c ∈ t.children, c.ShowsFaults := fun c child => first.of_child child
    have pruned : (partsAll t.damagedChildren).find? isFault =
        (partsAll t.children).find? isFault :=
      find?_partsAll_filter fun c child => below c child c (mem_parts_self c)
    have left : ∀ c ∈ t.damagedChildren ++ rest, c.ShowsFaults := by
      intro c waiting
      rcases List.mem_append.mp waiting with child | later
      · exact below c (List.mem_filter.mp child).1
      · exact others c later
    rw [ih left, partsAll, parts_eq, List.cons_append, List.find?_cons_of_neg sound,
      List.find?_append, ← pruned, partsAll_eq, partsAll_eq, partsAll_eq, List.flatMap_append,
      List.find?_append]

variable {tree : Tree Span} {bytes : List UInt8}

@[simp] theorem isFault_resolveUnder (field : Option String) (t : Tree Span) :
    (resolveUnder bytes field t).isFault = t.label.isFault := by
  cases t
  rfl

theorem MarksFaults.shows (marks : tree.MarksFaults) (bytes : List UInt8) :
    (tree.resolve bytes).ShowsFaults := by
  intro c part s below fault
  obtain ⟨u, inside, own, rfl⟩ := exists_of_mem_parts_resolveUnder _ tree part
  obtain ⟨v, within, field, rfl⟩ := exists_of_mem_parts_resolveUnder own u below
  rw [isFault_resolveUnder] at fault
  rw [label_resolveUnder, Bool.or_eq_true]
  change u.label.damaged = true ∨ u.label.missing = true
  rw [parts_eq] at within
  rcases List.mem_cons.mp within with rfl | deeper
  · rw [Span.isFault, Bool.or_eq_true, beq_iff_eq] at fault
    exact fault.imp (marks.errors v inside) id
  · exact .inl (marks.above u inside v deeper fault)

theorem position_firstFault? (marks : tree.MarksFaults) :
    ((firstFault? [tree.resolve bytes]).getD (tree.resolve bytes)).position =
      Position.ofOffset bytes tree.faultSpan.start := by
  have shows : ∀ t ∈ [tree.resolve bytes], t.ShowsFaults := by
    simpa using marks.shows bytes
  have told : (tree.resolve bytes).parts.map (fun t => (t.isFault, t.position)) =
      (tree.parts.map label).map fun s => (s.isFault, Position.ofOffset bytes s.start) := by
    rw [List.map_map]
    exact map_parts_resolveUnder (fun _ ⟨_, _⟩ => rfl) _ tree
  have root : (tree.resolve bytes).position = Position.ofOffset bytes tree.label.start := by
    rw [resolve, position, label_resolveUnder]
    rfl
  have found := map_find?_of_map_eq told
  rw [firstFault?_eq_find? shows, partsAll, partsAll, List.append_nil, faultSpan,
    ← Option.getD_map position, found, root, ← Option.getD_map fun s : Span =>
      Position.ofOffset bytes s.start]

theorem checked_resolve (marks : tree.MarksFaults) :
    (tree.resolve bytes).checked =
      if tree.label.damaged then .error ⟨Position.ofOffset bytes tree.faultSpan.start⟩
      else .ok (tree.resolve bytes) := by
  have damaged : (tree.resolve bytes).label.damaged = tree.label.damaged := by
    rw [resolve, label_resolveUnder]
    rfl
  rw [checked, damaged, position_firstFault? marks]

end Tree

def spans (parser : SyntaxParser) (source : RawText) (fileName : Option RawText) : Tree Span :=
  parser (Grammar.ofFileName (fileName.map RawText.clean)) source.clean

/-- A source that could not be read from some place on: one error message and nothing else. -/
def Facts.ofFault (source : String) (fileName : Option String) (p : Position) : Facts where
  source := source
  fileName := fileName
  componentName := none
  props := []
  hooks := []
  effects := []
  callbacks := []
  locals := []
  elements := []
  exports := ⟨none, []⟩
  errors := ["Failed to parse source: syntax error at line " ++ toString p.line ++ ", column " ++
    toString p.column]
  calledNames := []

namespace Graph

theorem Builder.ofFacts_ofFault (source : String) (fileName : Option String) (p : Position) :
    ofFacts (.ofFault source fileName p) = { columns := .standard } := rfl

theorem Builder.pairStates_pack_toLayout (columns : Columns) (f : Facts) :
    ({ columns := columns } : Builder).toLayout.pack.pairStates f = blank columns := rfl

/-- One error and nothing else is laid out as if there were no facts. -/
theorem Layout.build_ofFault (source : String) (fileName : Option String) (p : Position) :
    build (some (.ofFault source fileName p)) = build none := by
  have near : ∀ e ∈ (Facts.ofFault source fileName p).elements,
      (Binary64.ofRat (e.depth * 160 : Int)).isFinite := by
    intro e listed
    cases listed
  rw [build_eq_ok near, ofFacts, Builder.ofFacts_ofFault, Builder.pairStates_pack_toLayout, build]
  rfl

end Graph

@[simp] theorem Facts.errors_ofTree (source : String) (fileName : Option String)
    (root : SyntaxNode) : (ofTree source fileName root).errors = [] := by
  unfold ofTree
  dsimp only
  split <;> rfl

theorem SyntaxError.message_eq (e : SyntaxError) : e.message =
    "syntax error at line " ++ toString e.position.line ++ ", column " ++
      toString e.position.column := by
  unfold message
  rfl

theorem SyntaxError.failed_message (e : SyntaxError) : "Failed to parse source: " ++ e.message =
    "Failed to parse source: syntax error at line " ++ toString e.position.line ++ ", column " ++
      toString e.position.column := by
  have joined : "Failed to parse source: " ++ "syntax error at line " =
      "Failed to parse source: syntax error at line " := by simp
  rw [message_eq, ← joined]
  simp only [String.append_assoc]

section Analysis

variable {parser : SyntaxParser} {source : RawText} {fileName : Option RawText}

theorem analyze_of_checked_eq_error {e : SyntaxError}
    (failed : (parsed parser source fileName).checked = .error e) :
    analyze parser source fileName =
      .ok (.ofFault source.clean (fileName.map RawText.clean) e.position) := by
  rw [parsed] at failed
  unfold analyze
  simp only [failed, e.failed_message]
  rfl

theorem errors_of_checked_eq_ok {root : SyntaxNode}
    (undamaged : (parsed parser source fileName).checked = .ok root) {facts : Facts}
    (analyzed : analyze parser source fileName = .ok facts) : facts.errors = [] := by
  rw [parsed] at undamaged
  unfold analyze at analyzed
  simp only [undamaged] at analyzed
  obtain ⟨-, rfl⟩ := (afterReading_eq_ok_iff _ _ _).mp analyzed
  exact Facts.errors_ofTree _ _ _

theorem checked_parsed (marks : (spans parser source fileName).MarksFaults) :
    (parsed parser source fileName).checked =
      if (spans parser source fileName).label.damaged then
        .error ⟨Position.ofOffset source.encode (spans parser source fileName).faultSpan.start⟩
      else .ok (parsed parser source fileName) :=
  Tree.checked_resolve marks

end Analysis

/-- Where the marks of a parser can be relied on, reading a source fails just if the root is damaged,
and tells the line and the byte column of the first fault of the whole tree, or of the root if there is
none. The facts are then one error message under the names that were given, and their layout is that of
no facts at all. Without damage at the root there are no errors, as far as the texts can be read. -/
theorem analyze_firstFault (parser : SyntaxParser) (source : RawText) (fileName : Option RawText)
    (marks : (spans parser source fileName).MarksFaults) :
    ((∃ e, (parsed parser source fileName).checked = .error e) ↔
      (spans parser source fileName).label.damaged = true) ∧
    ((spans parser source fileName).label.damaged = true →
      let place := Position.ofOffset source.encode (spans parser source fileName).faultSpan.start
      let facts := Facts.ofFault source.clean (fileName.map RawText.clean) place
      (parsed parser source fileName).checked = .error ⟨place⟩ ∧
        analyze parser source fileName = .ok facts ∧
        Graph.Layout.build (some facts) = Graph.Layout.build none) ∧
    ((spans parser source fileName).label.damaged = false →
      (parsed parser source fileName).checked = .ok (parsed parser source fileName) ∧
      ((analyze parser source fileName = .error .cutCharacter ∧
        ∃ t ∈ Facts.reads (fileName.map RawText.clean) (parsed parser source fileName),
          t.isLegible = false) ∨
      ∃ facts, analyze parser source fileName = .ok facts ∧ facts.errors = [])) := by
  have checked := checked_parsed marks
  cases damaged : (spans parser source fileName).label.damaged with
  | true =>
    rw [damaged, if_pos rfl] at checked
    refine ⟨⟨fun _ => rfl, fun _ => ⟨_, checked⟩⟩, fun _ => ⟨checked, ?_, ?_⟩, nofun⟩
    · exact analyze_of_checked_eq_error checked
    · exact Graph.Layout.build_ofFault _ _ _
  | false =>
    rw [damaged, if_neg Bool.false_ne_true] at checked
    refine ⟨⟨fun ⟨e, failed⟩ => ?_, nofun⟩, nofun, fun _ => ⟨checked, ?_⟩⟩
    · rw [checked] at failed
      cases failed
    · cases analyzed : analyze parser source fileName with
      | error e => exact .inl ⟨rfl, exists_illegible_of_analyze analyzed⟩
      | ok facts => exact .inr ⟨facts, rfl, errors_of_checked_eq_ok checked analyzed⟩

/-- A statement, then one that lacks its last bracket, then what cannot be read. -/
def brokenTree : Tree Span :=
  let part (kind : String) (start stop : Nat) (missing damaged : Bool)
      (below : List (Tree Span)) : Tree Span :=
    .node ⟨kind, none, start, stop, true, missing, damaged, 0⟩ below
  part "program" 0 7 false true [
    part "expression_statement" 0 1 false false [part "identifier" 0 1 false false []],
    part "expression_statement" 2 5 false true [
      part "parenthesized_expression" 2 5 false true [
        part "(" 2 3 false false [],
        part "identifier" 3 5 false false [],
        part ")" 5 5 true false []]],
    part "ERROR" 6 7 false true []]

def brokenSource : RawText :=
  .ofString "a\n(é\n?"

/-- The bracket is missed after three bytes of the second line. -/
theorem brokenTree_firstFault :
    brokenTree.MarksFaults ∧ brokenTree.label.damaged = true ∧
      analyze (fun _ _ => brokenTree) brokenSource none =
        .ok (.ofFault brokenSource.clean none ⟨2, 3⟩) ∧
      Graph.Layout.build (some (.ofFault brokenSource.clean none ⟨2, 3⟩)) =
        Graph.Layout.build none ∧
      (Facts.ofFault brokenSource.clean none ⟨2, 3⟩).errors =
        ["Failed to parse source: syntax error at line 2, column 3"] := by
  have marks : brokenTree.MarksFaults := by decide +kernel
  have damaged : brokenTree.label.damaged = true := rfl
  have place : Position.ofOffset brokenSource.encode
      (spans (fun _ _ => brokenTree) brokenSource none).faultSpan.start = ⟨2, 3⟩ := by
    decide +kernel
  obtain ⟨-, analyzed, laidOut⟩ :=
    (analyze_firstFault (fun _ _ => brokenTree) brokenSource none marks).2.1 damaged
  rw [place] at analyzed laidOut
  exact ⟨marks, damaged, analyzed, laidOut, by decide +kernel⟩

end RenderFlow
