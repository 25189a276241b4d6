import RenderFlow.Proofs.Facts.Agreement

/-!
The component that a file exports is found. Names are chosen among what the export statements at the
top of a file tell, and the function of a chosen name is searched in the whole tree, by other
conditions. Main statement: `exported_component_found`.
-/
namespace RenderFlow

theorem Exports.mem_of_primary? {exports : Exports} {fileName : Option String} {name : String}
    (chosen : exports.primary? fileName = some name) :
    exports.default = some name ∨ name ∈ exports.components := by
  unfold primary? at chosen
  split at chosen
  · rename_i default given
    obtain rfl := Option.some.inj chosen
    exact .inl (Option.filter_eq_some_iff.mp given).1
  right
  split at chosen
  · cases chosen
  · rename_i only held
    obtain rfl := Option.some.inj chosen
    rw [held]
    exact List.mem_cons_self
  · rename_i first rest _ held
    rcases Option.or_eq_some_iff.mp chosen with hinted | ⟨-, first⟩
    · simpa using (Option.filter_eq_some_iff.mp hinted).2
    · obtain rfl := Option.some.inj first
      rw [held]
      exact List.mem_cons_self

namespace Tree

/-- The node gives a function a name: as its declaration, as a literal with a name of its own, or as a
declarator that binds a literal to one name. -/
inductive Declares (name : String) : SyntaxNode → SyntaxNode → Prop where
  | function {t n : SyntaxNode} (kind : t.kind = "function_declaration" ∨ t.isFunction = true)
      (named : t.child? "name" = some n) (called : n.text = name) : Declares name t t
  | declarator {t n f : SyntaxNode} (kind : t.kind = "variable_declarator")
      (named : t.child? "name" = some n) (plain : n.kind = "identifier") (called : n.text = name)
      (bound : t.child? "value" = some f) (literal : f.isFunction = true) : Declares name t f

theorem declaredName?_eq_some_iff {t n : SyntaxNode} :
    t.declaredName? = some n ↔
      (t.kind = "function_declaration" ∨ t.isFunction = true) ∧ t.child? "name" = some n ∨
        t.kind = "variable_declarator" ∧ t.child? "name" = some n ∧ n.kind = "identifier" := by
  unfold declaredName?
  by_cases declarator : t.kind = "variable_declarator"
  · simp [isFunction, declarator, plainTarget?_eq_some_iff]
  · simp [declarator]

theorem functionOf?_of_function {t : SyntaxNode}
    (kind : t.kind = "function_declaration" ∨ t.isFunction = true) : t.functionOf? = some t := by
  refine if_neg fun declarator => ?_
  rw [beq_iff_eq] at declarator
  simp [isFunction, declarator] at kind

theorem functionOf?_of_declarator {t f : SyntaxNode} (kind : t.kind = "variable_declarator") :
    t.functionOf? = some f ↔ t.child? "value" = some f ∧ f.isFunction = true := by
  rw [functionOf?, if_pos (beq_iff_eq.mpr kind), Option.filter_eq_some_iff]

theorem declaredFunction?_eq_some_iff {name : String} {t f : SyntaxNode} :
    t.declaredFunction? name = some f ↔ Declares name t f := by
  have told : t.declaredFunction? name = some f ↔
      (∃ n, t.declaredName? = some n ∧ n.text = name) ∧ t.functionOf? = some f := by
    simp [declaredFunction?, and_comm]
  rw [told]
  constructor
  · rintro ⟨⟨n, named, called⟩, bound⟩
    rcases declaredName?_eq_some_iff.mp named with ⟨kind, named⟩ | ⟨kind, named, plain⟩
    · rw [functionOf?_of_function kind] at bound
      obtain rfl := Option.some.inj bound
      exact .function kind named called
    · obtain ⟨value, literal⟩ := (functionOf?_of_declarator kind).mp bound
      exact .declarator kind named plain called value literal
  · intro declares
    cases declares with
    | function kind named called =>
      exact ⟨⟨_, declaredName?_eq_some_iff.mpr (.inl ⟨kind, named⟩), called⟩,
        functionOf?_of_function kind⟩
    | declarator kind named plain called bound literal =>
      exact ⟨⟨_, declaredName?_eq_some_iff.mpr (.inr ⟨kind, named, plain⟩), called⟩,
        (functionOf?_of_declarator kind).mpr ⟨bound, literal⟩⟩

theorem findComponent?_eq_some_iff {root f : SyntaxNode} {name : String} :
    root.findComponent? name = some f ↔
      ∃ before t after, root.walk = before ++ t :: after ∧ Declares name t f ∧
        ∀ s ∈ before, ∀ g, ¬ Declares name s g := by
  rw [findComponent?, List.findSome?_eq_some_iff]
  simp only [declaredFunction?_eq_some_iff, Option.eq_none_iff_forall_not_mem, Option.mem_def]

theorem Declares.isFunction {name : String} {t f : SyntaxNode} (declares : Declares name t f) :
    f.kind = "function_declaration" ∨ f.isFunction = true := by
  cases declares with
  | function kind => exact kind
  | declarator _ _ _ _ _ literal => exact .inr literal

theorem searchReads_eq {name : String} {before after : List SyntaxNode} {t f : SyntaxNode}
    (declares : Declares name t f) (first : ∀ s ∈ before, ∀ g, ¬ Declares name s g) :
    searchReads name (before ++ t :: after) =
      (before ++ [t]).flatMap fun s => s.declaredName?.toList := by
  have found := declaredFunction?_eq_some_iff.mpr declares
  induction before with
  | nil => simp [searchReads, found]
  | cons s rest ih =>
    have passed : s.declaredFunction? name = none := by
      rw [Option.eq_none_iff_forall_ne_some]
      exact fun g other => first s List.mem_cons_self g (declaredFunction?_eq_some_iff.mp other)
    have later := ih fun s within => first s (List.mem_cons_of_mem _ within)
    rw [List.cons_append, searchReads, passed, later, List.cons_append, List.flatMap_cons]
    rfl

/-- The node is what an export statement declares itself: a function, one variable among others, or the
literal that is its default. -/
inductive Presents (e : SyntaxNode) : SyntaxNode → Prop where
  | function {d : SyntaxNode} (declared : e.child? "declaration" = some d)
      (kind : d.kind = "function_declaration") : Presents e d
  | declarator {d t : SyntaxNode} (named : e.isDefaultExport = false)
      (declared : e.child? "declaration" = some d)
      (kind : d.kind = "lexical_declaration" ∨ d.kind = "variable_declaration")
      (one : t ∈ d.visibleChildren) (declarator : t.kind = "variable_declarator") : Presents e t
  | literal {v : SyntaxNode} (default : e.isDefaultExport = true) (value : e.child? "value" = some v)
      (literal : v.isFunction = true) : Presents e v

def ExportsFunction (e : SyntaxNode) (name : String) (f : SyntaxNode) : Prop :=
  ∃ t, Presents e t ∧ Declares name t f

inductive ExportsName (e : SyntaxNode) (name : String) : Prop where
  | default {v : SyntaxNode} (default : e.isDefaultExport = true) (value : e.child? "value" = some v)
      (plain : v.kind = "identifier") (called : v.text = name)
  | clause {c s n : SyntaxNode} (named : e.isDefaultExport = false) (clause : c ∈ e.visibleChildren)
      (kind : c.kind = "export_clause") (specifier : s ∈ c.visibleChildren)
      (exported : s.exportedName? = some n) (called : n.text = name)

theorem declares_of_functionDeclarator? {t n : SyntaxNode} (given : t.functionDeclarator? = some n) :
    t.kind = "variable_declarator" ∧ ∃ f, Declares n.text t f := by
  simp only [functionDeclarator?, Option.bind_eq_bind, Option.bind_eq_some_iff,
    Option.guard_eq_some', Option.pure_def, Option.some.injEq, beq_iff_eq, Bool.and_eq_true] at given
  obtain ⟨_, kind, own, named, f, bound, _, ⟨plain, literal⟩, rfl⟩ := given
  exact ⟨kind, f, .declarator kind named plain rfl bound literal⟩

theorem mem_of_mem_declaredFunctions {d n : SyntaxNode} (given : n ∈ d.declaredFunctions) :
    d.kind = "function_declaration" ∧ Declares n.text d d ∨
      (d.kind = "lexical_declaration" ∨ d.kind = "variable_declaration") ∧
        ∃ t ∈ d.visibleChildren, t.kind = "variable_declarator" ∧ ∃ f, Declares n.text t f := by
  unfold declaredFunctions at given
  split at given
  · rename_i kind
    rw [beq_iff_eq] at kind
    exact .inl ⟨kind, .function (.inl kind) (Option.mem_toList.mp given) rfl⟩
  split at given
  · rename_i kind
    obtain ⟨t, one, binds⟩ := List.mem_filterMap.mp given
    exact .inr ⟨by simpa using kind, t, one, declares_of_functionDeclarator? binds⟩
  · cases given

theorem exports_of_defaultName? {e n : SyntaxNode} (default : e.isDefaultExport = true)
    (given : e.defaultName? = some n) :
    (∃ f, ExportsFunction e n.text f) ∨ ExportsName e n.text := by
  unfold defaultName? at given
  dsimp only at given
  rw [Option.or_eq_some_iff, Option.or_eq_some_iff] at given
  rcases given with named | ⟨-, literal | ⟨-, declared⟩⟩
  · obtain ⟨value, plain⟩ := Option.filter_eq_some_iff.mp named
    exact .inr (.default default value (beq_iff_eq.mp plain) rfl)
  · obtain ⟨v, value, own⟩ := Option.bind_eq_some_iff.mp literal
    unfold functionName? at own
    split at own
    · rename_i function
      exact .inl ⟨v, v, .literal default value function, .function (.inr function) own rfl⟩
    · cases own
  · obtain ⟨d, held, first⟩ := Option.bind_eq_some_iff.mp declared
    obtain ⟨declared, kind⟩ := Option.filter_eq_some_iff.mp held
    rw [beq_iff_eq] at kind
    rcases mem_of_mem_declaredFunctions (List.mem_of_mem_head? first) with ⟨-, function⟩ | ⟨other, -⟩
    · exact .inl ⟨d, d, .function declared kind, function⟩
    · simp [kind] at other

theorem exports_of_mem_namedExports {e n : SyntaxNode} (named : e.isDefaultExport = false)
    (given : n ∈ e.namedExports) :
    (∃ f, ExportsFunction e n.text f) ∨ ExportsName e n.text := by
  rcases List.mem_append.mp given with declared | specified
  · obtain ⟨d, held, own⟩ := List.mem_flatMap.mp declared
    have declared := Option.mem_toList.mp held
    rcases mem_of_mem_declaredFunctions own with
      ⟨kind, function⟩ | ⟨kind, t, one, declarator, f, function⟩
    · exact .inl ⟨d, d, .function declared kind, function⟩
    · exact .inl ⟨f, t, .declarator named declared kind one declarator, function⟩
  · obtain ⟨c, held, own⟩ := List.mem_flatMap.mp specified
    obtain ⟨clause, kind⟩ := List.mem_filter.mp held
    obtain ⟨s, specifier, exported⟩ := List.mem_filterMap.mp own
    exact .inr (.clause named clause (beq_iff_eq.mp kind) specifier exported rfl)

theorem exists_export_of_primary? {root : SyntaxNode} {fileName : Option String} {name : String}
    (chosen : root.exports.primary? fileName = some name) :
    ∃ e ∈ root.exportStatements, (∃ f, ExportsFunction e name f) ∨ ExportsName e name := by
  rcases Exports.mem_of_primary? chosen with default | component
  · obtain ⟨n, last, rfl⟩ := Option.map_eq_some_iff.mp default
    obtain ⟨e, held, given⟩ := List.mem_filterMap.mp (List.mem_of_getLast? last)
    obtain ⟨within, default⟩ := List.mem_filter.mp held
    exact ⟨e, within, exports_of_defaultName? default given⟩
  · obtain ⟨n, told, rfl⟩ := List.mem_map.mp component
    obtain ⟨e, held, given⟩ := List.mem_flatMap.mp told
    obtain ⟨within, named⟩ := List.mem_filter.mp held
    exact ⟨e, within, exports_of_mem_namedExports (by simpa using named) given⟩

/-- The declarations that are exported are visible, as they are where all children with a field are. -/
def ShowsDeclarations (root : SyntaxNode) : Prop :=
  ∀ e ∈ root.exportStatements, ∀ d ∈ e.child? "declaration", d.isVisible = true

theorem visible_of_isFunction {t : SyntaxNode} (function : t.isFunction = true) :
    t.isVisible = true := by
  unfold isFunction at function
  unfold isVisible
  obtain ⟨named, kind⟩ := (Bool.and_eq_true _ _).mp function
  rw [named, Bool.true_and, bne_iff_ne]
  intro comment
  rw [comment] at kind
  simp at kind

theorem mem_walk_of_child? {t c s : SyntaxNode} {field : String} (found : t.child? field = some c)
    (visible : c.isVisible = true) (walked : s ∈ c.walk) : s ∈ t.walk :=
  mem_walk_of_visibleChild (List.mem_filter.mpr ⟨mem_children_of_child? found, visible⟩) walked

theorem mem_walk_of_presents {root e t : SyntaxNode} (shown : root.ShowsDeclarations)
    (within : e ∈ root.exportStatements) (presents : Presents e t) : t ∈ root.walk := by
  have statement := (List.mem_filter.mp within).1
  refine mem_walk_of_visibleChild statement ?_
  cases presents with
  | function declared kind =>
    exact mem_walk_of_child? declared (shown e within t declared) (mem_walk_self t)
  | declarator named declared kind one declarator =>
    exact mem_walk_of_child? declared (shown e within _ declared)
      (mem_walk_of_visibleChild one (mem_walk_self t))
  | literal default value literal =>
    exact mem_walk_of_child? value (visible_of_isFunction literal) (mem_walk_self t)

/-- A chosen name is told by an export statement, of a function of its own or by name alone. If any
tells it of a function of its own, the search for it stops at the first node of the walk that gives a
function the name, having read the names up to there, and finds that function; so it finds the exported
one unless an earlier node gives the name to another. -/
theorem exported_component_found {root : SyntaxNode} (shown : root.ShowsDeclarations)
    {fileName : Option String} {name : String} (chosen : root.exports.primary? fileName = some name) :
    (∃ e ∈ root.exportStatements, (∃ f, ExportsFunction e name f) ∨ ExportsName e name) ∧
    ∀ e ∈ root.exportStatements, ∀ s f, Presents e s → Declares name s f →
      ∃ before t after g, root.walk = before ++ t :: after ∧
        Declares name t g ∧ (∀ r ∈ before, ∀ h, ¬ Declares name r h) ∧
        (g.kind = "function_declaration" ∨ g.isFunction = true) ∧
        (root.exports.primary? fileName).bind root.findComponent? = some g ∧
        searchReads name root.walk = (before ++ [t]).flatMap (fun r => r.declaredName?.toList) ∧
        ∀ others rest, root.walk = others ++ s :: rest →
          (∀ r ∈ others, ∀ h, ¬ Declares name r h) → g = f := by
  refine ⟨exists_export_of_primary? chosen, fun e within s f presents declares => ?_⟩
  have walked := mem_walk_of_presents shown within presents
  obtain ⟨g, found⟩ : ∃ g, root.findComponent? name = some g := by
    rw [← Option.isSome_iff_exists, findComponent?, List.findSome?_isSome_iff]
    exact ⟨s, walked, Option.isSome_of_mem (declaredFunction?_eq_some_iff.mpr declares)⟩
  obtain ⟨before, t, after, split, gives, first⟩ := findComponent?_eq_some_iff.mp found
  refine ⟨before, t, after, g, split, gives, first, gives.isFunction, ?_, ?_, ?_⟩
  · rw [chosen, Option.bind_some, found]
  · rw [split, searchReads_eq gives first]
  · intro others rest whole earliest
    have own := findComponent?_eq_some_iff.mpr ⟨others, s, rest, whole, declares, earliest⟩
    exact Option.some.inj (found.symm.trans own)

def namedNode (kind : String) (field : Option String) (text : String) (below : List SyntaxNode) :
    SyntaxNode :=
  .node ⟨kind, field, some text, ⟨1, 0⟩, true, false, false, 0⟩ below

def oneVariable (name kind : String) : SyntaxNode :=
  namedNode "variable_declarator" none "" [
    namedNode "identifier" (some "name") name [], namedNode kind (some "value") "" []]

def exportedCards : SyntaxNode :=
  namedNode "export_statement" none "" [
    namedNode "lexical_declaration" (some "declaration") "" [
      oneVariable "Row" "arrow_function", oneVariable "Card" "arrow_function"]]

/-- A function with a number by the name of a component, and the components after it. -/
def shadowedTree : SyntaxNode :=
  namedNode "program" none "" [
    namedNode "function_declaration" none "" [
      namedNode "identifier" (some "name") "wrap" [],
      namedNode "statement_block" (some "body") "" [
        namedNode "lexical_declaration" none "" [oneVariable "Card" "number"]]],
    exportedCards]

theorem shadowedTree_component :
    shadowedTree.ShowsDeclarations ∧
      shadowedTree.exports.primary? (some "Card.tsx") = some "Card" ∧
      ∃ g, shadowedTree.findComponent? "Card" = some g ∧
        (g.kind = "function_declaration" ∨ g.isFunction = true) := by
  have statements : shadowedTree.exportStatements = [exportedCards] := rfl
  have shown : shadowedTree.ShowsDeclarations := by
    rw [ShowsDeclarations, statements, List.forall_mem_singleton]
    intro d declared
    obtain rfl := Option.some.inj declared
    rfl
  have chosen : shadowedTree.exports.primary? (some "Card.tsx") = some "Card" := by decide +kernel
  have presents : Presents exportedCards (oneVariable "Card" "arrow_function") :=
    .declarator rfl rfl (.inl rfl) (List.mem_cons_of_mem _ List.mem_cons_self) rfl
  have declares : Declares "Card" (oneVariable "Card" "arrow_function")
      (namedNode "arrow_function" (some "value") "" []) :=
    .declarator rfl rfl rfl rfl rfl rfl
  obtain ⟨-, found⟩ := exported_component_found shown chosen
  obtain ⟨-, -, -, g, -, -, -, function, same, -⟩ :=
    found exportedCards (statements ▸ List.mem_cons_self) _ _ presents declares
  exact ⟨shown, chosen, g, by rwa [chosen] at same, function⟩

end Tree

end RenderFlow
