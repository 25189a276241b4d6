import RenderFlow.Facts.Analysis
import RenderFlow.Proofs.Comments.Hooks

/-!
Comments do not matter. A tree without some of its comments, wherever they stand, gives the same
facts and the same errors as the whole tree. Main statement: `analyze_eq_of_isWithoutComments`.
-/
namespace RenderFlow

namespace Tree

variable (t : SyntaxNode)

@[simp] theorem declaredName?_bare : t.bare.declaredName? = t.declaredName?.map bare := by
  rw [declaredName?, kind_bare, isFunction_bare, child?_bare, plainTarget?_bare, declaredName?]
  split
  · rfl
  · split <;> rfl

theorem functionOf?_bare : t.bare.functionOf? = t.functionOf?.map bare := by
  rw [functionOf?, kind_bare, child?_bare, filter?_bare isFunction_bare, functionOf?]
  split <;> rfl

theorem declaredFunction?_bare (name : String) :
    t.bare.declaredFunction? name = (t.declaredFunction? name).map bare := by
  have same : (t.declaredName?.map bare).map text = t.declaredName?.map text := by
    simp [Function.comp_def]
  rw [declaredFunction?, declaredName?_bare, same, functionOf?_bare, declaredFunction?]
  split <;> rfl

@[simp] theorem findComponent?_bare (name : String) :
    t.bare.findComponent? name = (t.findComponent? name).map bare := by
  rw [findComponent?, walk_bare, findComponent?, List.findSome?_map, List.map_findSome?]
  congr 1
  funext c
  exact declaredFunction?_bare c name

theorem searchReads_map_bare (name : String) (ts : List SyntaxNode) :
    searchReads name (ts.map bare) = (searchReads name ts).map bare := by
  induction ts with
  | nil => rfl
  | cons t rest ih =>
    rw [List.map_cons, searchReads, declaredName?_bare, Option.toList_map, declaredFunction?_bare,
      Option.isSome_map, ih, searchReads, List.map_append]
    split <;> rfl

theorem parameterPattern?_bare : t.bare.parameterPattern? = t.parameterPattern?.map bare := by
  rw [parameterPattern?, kind_bare, child?_bare, parameterPattern?]
  split <;> rfl

@[simp] theorem propBindings_bare : t.bare.propBindings = t.propBindings.map Binding.bare := by
  have first (c : SyntaxNode) : c.bare.visibleChildren.head? =
      c.visibleChildren.head?.map bare := by
    rw [visibleChildren_bare, List.head?_map]
  simp only [propBindings, child?_bare, @bind_bare _ (·.visibleChildren.head?) _ first,
    bind_bare parameterPattern?_bare, filter?_kind_bare]
  cases (((t.child? "parameters").bind (·.visibleChildren.head?)).bind parameterPattern?).filter
    (·.kind == "object_pattern") with
  | none => rfl
  | some pattern => exact bindings_bare pattern

@[simp] theorem componentProps_bare : t.bare.componentProps = t.componentProps := by
  simp [componentProps, Function.comp_def]

@[simp] theorem propReads_bare : t.bare.propReads = t.propReads.map bare := by
  rw [propReads, propBindings_bare, propReads, List.map_map, List.map_map]
  rfl

@[simp] theorem primaryName?_bare (fileName : Option String) :
    t.bare.primaryName? fileName = t.primaryName? fileName := by
  rw [primaryName?, exports_bare, primaryName?]

@[simp] theorem componentBody?_bare (name : String) :
    t.bare.componentBody? name = (t.componentBody? name).map (Prod.map bare bare) := by
  rw [componentBody?, findComponent?_bare, componentBody?]
  refine bind_bare (fun c => ?_) _
  rw [child?_bare, Option.map_map, Option.map_map]
  rfl

end Tree

namespace Facts

variable (imports : Imports) (component body : SyntaxNode)

theorem addComponent_bare (facts : Facts) :
    facts.addComponent imports component.bare body.bare =
      facts.addComponent imports component body := by
  have collected := Declarations.collect_bare imports [] ⟨body, some component⟩
  simp only [Placed.bare, Option.map_some] at collected
  simp only [addComponent, collected, Tree.componentProps_bare, Tree.elements_bare]

theorem componentReads_bare :
    componentReads imports component.bare body.bare =
      (componentReads imports component body).map Tree.bare := by
  have read := Declarations.reads_bare imports ⟨body, some component⟩
  simp only [Placed.bare, Option.map_some] at read
  simp only [componentReads, read, Tree.propReads_bare, Tree.elementReads_bare, List.map_append]

theorem bind_componentBody?_bare (fileName : Option String) (root : SyntaxNode) :
    (root.primaryName? fileName).bind root.bare.componentBody? =
      ((root.primaryName? fileName).bind root.componentBody?).map (Prod.map Tree.bare Tree.bare) := by
  rw [Option.map_bind]
  congr 1
  funext name
  exact Tree.componentBody?_bare root name

theorem ofTree_bare (source : String) (fileName : Option String) (root : SyntaxNode) :
    ofTree source fileName root.bare = ofTree source fileName root := by
  simp only [ofTree, Tree.exports_bare, Tree.primaryName?_bare, Tree.imports_bare,
    bind_componentBody?_bare]
  cases (root.primaryName? fileName).bind root.componentBody? with
  | none => rfl
  | some parts => exact addComponent_bare _ _ _ _

theorem reads_bare (fileName : Option String) (root : SyntaxNode) :
    reads fileName root.bare = (reads fileName root).map Tree.bare := by
  simp only [reads, Tree.primaryName?_bare, Tree.imports_bare, bind_componentBody?_bare, Tree.walk_bare,
    Tree.searchReads_map_bare, Tree.importReads_bare, Tree.exportReads_bare, List.map_append]
  congr 1
  · congr 1
    cases root.primaryName? fileName <;> rfl
  · cases (root.primaryName? fileName).bind root.componentBody? with
    | none => rfl
    | some parts => exact componentReads_bare _ _ _

end Facts

theorem afterReading_map_bare (nodes : List SyntaxNode) (answer : α) :
    afterReading (nodes.map Tree.bare) answer = afterReading nodes answer := by
  simp only [afterReading, List.all_map, Function.comp_def, Tree.isLegible_bare]

def answerOf (text : String) (fileName : Option String) (root : SyntaxNode) :
    Except TextError Facts :=
  match root.checked with
  | .ok root => afterReading (Facts.reads fileName root) (Facts.ofTree text fileName root)
  | .error e =>
    .ok { source := text, fileName := fileName, errors := ["Failed to parse source: " ++ e.message] }

theorem answerOf_bare (text : String) (fileName : Option String) (root : SyntaxNode) :
    answerOf text fileName root.bare = answerOf text fileName root := by
  rw [answerOf, Tree.checked_bare, answerOf]
  cases root.checked with
  | error e => rfl
  | ok root =>
    simp only [Except.map]
    rw [Facts.reads_bare, Facts.ofTree_bare, afterReading_map_bare]

/-- An analysis gives the same, facts and errors alike, for a tree and for what is left of it without
some of the comments in it. -/
theorem analyze_eq_of_isWithoutComments {parser other : SyntaxParser} (source : RawText)
    (fileName : Option RawText)
    (lost : (parser (Grammar.ofFileName (fileName.map RawText.clean)) source.clean).IsWithoutComments
      (other (Grammar.ofFileName (fileName.map RawText.clean)) source.clean)) :
    analyze other source fileName = analyze parser source fileName := by
  have same := Tree.bare_resolve_eq lost source.encode
  change answerOf _ _ _ = answerOf _ _ _
  rw [← answerOf_bare, ← same, answerOf_bare]

/-- A component `F` whose only state stands second in its pattern, with the same notes after the
component, in its pattern and before the arguments of its call. -/
def annotatedTree (notes : List (Tree Span)) : Tree Span :=
  let word (kind : String) (field : Option String) (start stop : Nat) : Tree Span :=
    .node ⟨kind, field, start, stop, true, false, false, 0⟩ []
  let branch (kind : String) (field : Option String) (below : List (Tree Span)) : Tree Span :=
    .node ⟨kind, field, 0, 17, true, false, false, 0⟩ below
  branch "program" none ([
    branch "export_statement" none [
      branch "function_declaration" (some "declaration") [
        word "identifier" (some "name") 0 1,
        branch "statement_block" (some "body") [
          branch "variable_declarator" none [
            branch "array_pattern" (some "name")
              (notes ++ [word "," none 0 0] ++ notes ++ [word "identifier" none 2 3]),
            branch "call_expression" (some "value") (
              [word "identifier" (some "function") 4 12] ++ notes ++
                [branch "arguments" (some "arguments") []])]]]]] ++ notes)

def note : Tree Span :=
  .node ⟨"comment", none, 13, 17, true, false, false, 9⟩ []

theorem annotatedTree_analyze_eq :
    (annotatedTree [note]).IsWithoutComments (annotatedTree []) ∧
      analyze (fun _ _ => annotatedTree []) (.ofString "F s useState note") none =
        analyze (fun _ _ => annotatedTree [note]) (.ofString "F s useState note") none := by
  have plain : Span.IsPlainComment note.label := ⟨rfl, rfl, rfl, rfl⟩
  have lost : (annotatedTree [note]).IsWithoutComments (annotatedTree []) := by
    refine ⟨rfl, .keep rfl (.keep rfl (.keep rfl .nil (.keep rfl (.keep rfl (.keep rfl ?_
      (.keep rfl ?_ .nil)) .nil) .nil)) .nil) (.lose plain .nil)⟩
    · exact .lose plain (.keep rfl .nil (.lose plain (.keep rfl .nil .nil)))
    · exact .keep rfl .nil (.lose plain (.keep rfl .nil .nil))
  exact ⟨lost, analyze_eq_of_isWithoutComments _ none lost⟩

end RenderFlow
