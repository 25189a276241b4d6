import RenderFlow.Proofs.Facts.Agreement
import RenderFlow.Proofs.Hook.Listing
import RenderFlow.Proofs.Markup.Listing

/-!
What can be relied on in the lists of facts: numbers without a gap, names without repetition, and the
order of the source where its tree has one. Main statement: `analyze_coherent`.
-/
namespace RenderFlow

namespace Facts

structure Coherent (f : Facts) : Prop where
  counted : f.Counted
  hooks : ∀ h ∈ f.hooks, h.IsScoped
  effects : ∀ e ∈ f.effects, e.Distinct
  callbacks : ∀ c ∈ f.callbacks, c.Distinct
  locals : ∀ v ∈ f.locals, v.Distinct
  elements : ∀ e ∈ f.elements, e.Distinct
  calledNames : f.calledNames.Nodup

/-- Hooks may be out of order: a hook has the place of its call, and declarators inside the pattern
before that call are met later. -/
structure InSourceOrder (f : Facts) : Prop where
  effects : ListedInOrder (·.definedAt) f.effects
  callbacks : ListedInOrder (·.definedAt) f.callbacks
  locals : ListedInOrder (·.definedAt) f.locals
  elements : ListedInOrder (·.definedAt) f.elements

theorem coherent_ofTree (source : String) (fileName : Option String) (root : SyntaxNode) :
    (ofTree source fileName root).Coherent := by
  have counted := counted_ofTree source fileName root
  rcases ofTree_cases source fileName root with ⟨name, component, body, -, same⟩ | same
  · rw [same] at counted ⊢
    exact {
      counted := counted
      hooks := fun h => Declarations.isScoped_of_mem_hooks
      effects := fun e => Declarations.distinct_of_mem_effects
      callbacks := fun c => Declarations.distinct_of_mem_callbacks
      locals := fun v => Declarations.distinct_of_mem_locals
      elements := fun e => Tree.distinct_of_mem_elements
      calledNames := Declarations.nodup_calledNames_collect _ _ _ }
  · rw [same] at counted ⊢
    refine ⟨counted, ?_, ?_, ?_, ?_, ?_, List.nodup_nil⟩ <;> intro record within <;> cases within

theorem inSourceOrder_ofTree {tree : Tree Span} (order : tree.InSourceOrder) (bytes : List UInt8)
    (source : String) (fileName : Option String) :
    (ofTree source fileName (tree.resolve bytes)).InSourceOrder := by
  rcases ofTree_cases source fileName (tree.resolve bytes) with
    ⟨name, component, body, found, same⟩ | same
  · have walked := order.inOrder_walk (Tree.mem_parts_of_componentBody? found).2
    rw [same]
    exact {
      effects := Declarations.listed_effects _ walked _
      callbacks := Declarations.listed_callbacks _ walked _
      locals := Declarations.listed_locals _ walked _
      elements := Tree.listed_elements walked }
  · rw [same]
    exact ⟨.nil, .nil, .nil, .nil⟩

variable {parser : SyntaxParser} {source : RawText} {fileName : Option RawText} {facts : Facts}

theorem coherent_of_analyze (analyzed : analyze parser source fileName = .ok facts) :
    facts.Coherent := by
  have counted := counted_of_analyze analyzed
  rcases analyze_eq_ok_cases analyzed with rfl | ⟨e, rfl⟩
  · exact coherent_ofTree _ _ _
  · refine ⟨counted, ?_, ?_, ?_, ?_, ?_, List.nodup_nil⟩ <;> intro record within <;> cases within

theorem inSourceOrder_of_analyze
    (order : (parser (Grammar.ofFileName (fileName.map RawText.clean)) source.clean).InSourceOrder)
    (analyzed : analyze parser source fileName = .ok facts) : facts.InSourceOrder := by
  rcases analyze_eq_ok_cases analyzed with rfl | ⟨e, rfl⟩
  · exact inSourceOrder_ofTree order _ _ _
  · exact ⟨.nil, .nil, .nil, .nil⟩

/-- The records of each kind are numbered from one. A hook is global just if it lies in a store or a
query. No record lists a name twice, a ref is among the names that its element binds, and no variable
depends on itself. Where the nodes of a tree start one after another, effects, callbacks, variables
and elements are listed by line and column. -/
theorem analyze_coherent (parser : SyntaxParser) (source : RawText) (fileName : Option RawText) :
    (analyze parser source fileName = .error .cutCharacter ∧
      ∃ t ∈ Facts.reads (fileName.map RawText.clean) (parsed parser source fileName),
        t.isLegible = false) ∨
    ∃ facts, analyze parser source fileName = .ok facts ∧ facts.Coherent ∧
      ((parser (Grammar.ofFileName (fileName.map RawText.clean)) source.clean).InSourceOrder →
        facts.InSourceOrder) := by
  cases analyzed : analyze parser source fileName with
  | error e => exact .inl ⟨rfl, exists_illegible_of_analyze analyzed⟩
  | ok facts =>
    exact .inr ⟨facts, rfl, coherent_of_analyze analyzed, fun order =>
      inSourceOrder_of_analyze order analyzed⟩

/-- A component `F` with a state `s`, a variable `b` that depends on it, a memoized callback and an
effect that both set it, and an element with a ref in an element. -/
def listedTree : Tree Span :=
  let word (kind : String) (field : Option String) (start stop : Nat) : Tree Span :=
    .node ⟨kind, field, start, stop, true, false, false, 0⟩ []
  let branch (kind : String) (field : Option String) (start : Nat) (below : List (Tree Span)) :
      Tree Span :=
    .node ⟨kind, field, start, 69, true, false, false, 0⟩ below
  let hook (field : Option String) (start stop : Nat) (below : List (Tree Span)) : Tree Span :=
    branch "call_expression" field start (word "identifier" (some "function") start stop :: below)
  let given (start stop : Nat) : List (Tree Span) := [
    branch "arguments" (some "arguments") start [
      branch "arrow_function" none start [hook (some "body") start stop []],
      branch "array" none (stop + 1) [word "identifier" none (stop + 1) (stop + 2)]]]
  let declared (start : Nat) (value : Tree Span) : Tree Span :=
    branch "variable_declarator" none start [
      word "identifier" (some "name") start (start + 1), value]
  branch "program" none 0 [
    branch "export_statement" none 0 [
      branch "function_declaration" (some "declaration") 0 [
        word "identifier" (some "name") 0 1,
        branch "statement_block" (some "body") 2 [
          declared 2 (hook (some "value") 4 12 []),
          declared 13 (word "identifier" (some "value") 15 16),
          declared 17 (hook (some "value") 19 30 (given 31 35)),
          hook none 38 47 (given 48 52),
          branch "jsx_element" none 55 [
            branch "jsx_opening_element" (some "open_tag") 55 [
              word "identifier" (some "name") 55 58],
            branch "jsx_self_closing_element" none 59 [
              word "identifier" (some "name") 59 63,
              branch "jsx_attribute" none 64 [
                word "property_identifier" none 64 67,
                branch "jsx_expression" none 68 [word "identifier" none 68 69]]]]]]]]

def listedSource : RawText :=
  .ofString "F s useState\nb s f useCallback setS s\nuseEffect setS s\nBox Item ref r"

def listedFacts : Facts :=
  .ofTree listedSource.clean none (listedTree.resolve listedSource.encode)

theorem listedTree_coherent :
    listedTree.InSourceOrder ∧ listedFacts.elements.map (·.definedAt) = [some ⟨4, 0⟩, some ⟨4, 4⟩] ∧
      analyze (fun _ _ => listedTree) listedSource none = .ok listedFacts ∧
      listedFacts.Coherent ∧ listedFacts.InSourceOrder := by
  have order : listedTree.InSourceOrder := by decide +kernel
  have analyzed : analyze (fun _ _ => listedTree) listedSource none = .ok listedFacts := by
    decide +kernel
  refine ⟨order, by decide +kernel, analyzed, ?_⟩
  rcases analyze_coherent (fun _ _ => listedTree) listedSource none with
    ⟨failed, -⟩ | ⟨facts, same, coherent, listed⟩
  · rw [analyzed] at failed
    cases failed
  · rw [analyzed] at same
    cases same
    exact ⟨coherent, listed order⟩

end Facts

end RenderFlow
