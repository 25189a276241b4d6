import RenderFlow.Proofs.Facts.Counts
import RenderFlow.Proofs.Graph.Canvas
import RenderFlow.Proofs.Markup.Regrouping

/-!
From a source to boxes that do not touch. A parser counts the nodes of a tree in 32 bits, so no
component has so many records that a place has to be rounded. Main statement:
`Layout.build_analyze_framed`.
-/
namespace RenderFlow

open RenderFlow.Graph

/-- No tree has more nodes than 32 bits can count. -/
def SyntaxParser.CountsIn32Bits (parser : SyntaxParser) : Prop :=
  ∀ grammar text, (parser grammar text).size < 2 ^ 32

namespace Facts

theorem elements_ofTree_cases (source : String) (fileName : Option String) (root : SyntaxNode) :
    (ofTree source fileName root).elements = [] ∨
      ∃ body : SyntaxNode, (ofTree source fileName root).elements = body.elements := by
  unfold ofTree
  dsimp only
  split
  · rename_i component body _
    exact .inr ⟨body, rfl⟩
  · exact .inl rfl

theorem wellNested_of_elements_eq {f : Facts} {body : SyntaxNode} (same : f.elements = body.elements) :
    f.WellNested := by
  have ids := body.ids_elements
  constructor
  · rw [same, ids]
    exact List.Nodup.map (fun _ _ equal => Tree.elementId_injective equal) (List.nodup_range' ..)
  · intro e within empty
    rw [same] at within
    have listed : e.id ∈ body.elements.map (·.id) := List.mem_map_of_mem within
    rw [ids, empty] at listed
    obtain ⟨n, -, named⟩ := List.mem_map.mp listed
    simp at named
  · rw [same]
    exact body.nested_elements

theorem wellNested_of_elements_eq_nil {f : Facts} (none : f.elements = []) : f.WellNested := by
  constructor <;> rw [none]
  · exact List.nodup_nil
  · simp
  · exact .nil

theorem wellNested_of_analyze {parser : SyntaxParser} {source : RawText} {fileName : Option RawText}
    {facts : Facts} (analyzed : analyze parser source fileName = .ok facts) : facts.WellNested := by
  rcases analyze_eq_ok_cases analyzed with rfl | ⟨e, rfl⟩
  · rcases elements_ofTree_cases source.clean (fileName.map RawText.clean) _ with none | ⟨body, same⟩
    · exact wellNested_of_elements_eq_nil none
    · exact wellNested_of_elements_eq same
  · exact wellNested_of_elements_eq_nil rfl

theorem modest_of_analyze {parser : SyntaxParser} (counted : parser.CountsIn32Bits)
    {source : RawText} {fileName : Option RawText} {facts : Facts}
    (analyzed : analyze parser source fileName = .ok facts) : facts.Modest := by
  rcases analyze_eq_ok_cases analyzed with rfl | ⟨e, rfl⟩
  · have small := counted (Grammar.ofFileName (fileName.map RawText.clean)) source.clean
    refine (recordCount_ofTree_le _ _ _).trans ?_
    rw [parsed, Tree.size_resolve]
    omega
  · simp [Modest, recordCount, externalCalls, distinct]

end Facts

namespace Graph.Layout

theorem build_eq_ok_of_modest {f : Facts} (nests : f.WellNested) (modest : f.Modest) :
    build (some f) = .ok (ofFacts f) := by
  refine build_eq_ok ?_
  intro e within
  obtain ⟨d, deep, less⟩ := nests.depth_bounds within
  have short : (d * 160 : Int).natAbs ≤ Nat.pow 2 53 := by
    simp only [Facts.Modest, Facts.recordCount] at modest
    change _ ≤ 2 ^ 53
    omega
  rw [deep, Binary64.ofRat_intCast short]
  rfl

/-- What an analysis gives is always laid out: no element of it is too deep for a number. -/
theorem build_of_analyze {parser : SyntaxParser} (counted : parser.CountsIn32Bits)
    {source : RawText} {fileName : Option RawText} {facts : Facts}
    (analyzed : analyze parser source fileName = .ok facts) :
    build (some facts) = .ok (ofFacts facts) :=
  build_eq_ok_of_modest (Facts.wellNested_of_analyze analyzed)
    (Facts.modest_of_analyze counted analyzed)

/-- Unless a node that is read has a span that cuts a character, a source has a layout. Its boxes are of
one size around the places of its nodes, no two of them touch, and its canvas goes on for at least 120
to the right of each box and below it. -/
theorem build_analyze_framed {parser : SyntaxParser} (counted : parser.CountsIn32Bits)
    (source : RawText) (fileName : Option RawText) :
    (analyze parser source fileName = .error .cutCharacter ∧
      ∃ t ∈ Facts.reads (fileName.map RawText.clean) (parsed parser source fileName),
        t.isLegible = false) ∨
    ∃ facts l width height, analyze parser source fileName = .ok facts ∧
      build (some facts) = .ok l ∧ l.Framed width height := by
  cases analyzed : analyze parser source fileName with
  | error e => exact .inl ⟨rfl, exists_illegible_of_analyze analyzed⟩
  | ok facts =>
    have nests := Facts.wellNested_of_analyze analyzed
    have modest := Facts.modest_of_analyze counted analyzed
    obtain ⟨width, height, framed⟩ := ofFacts_framed nests modest
    exact .inr ⟨facts, ofFacts facts, width, height, rfl, build_of_analyze counted analyzed, framed⟩

def plainTree (kind : String) (below : List (Tree Span)) : Tree Span :=
  .node ⟨kind, none, 0, 0, true, false, false, 0⟩ below

def childTree (kind field : String) (start stop : Nat) (below : List (Tree Span)) : Tree Span :=
  .node ⟨kind, some field, start, stop, true, false, false, 0⟩ below

def wordTree (kind : String) (start stop : Nat) : Tree Span :=
  .node ⟨kind, none, start, stop, true, false, false, 0⟩ []

/-- A component `F` with a prop `p`, a state `n` that is set by `s`, and an element in an element. -/
def smallTree : Tree Span :=
  let state := plainTree "variable_declarator" [
    childTree "array_pattern" "name" 0 0 [
      wordTree "identifier" 4 5, wordTree "," 0 0, wordTree "identifier" 6 7],
    childTree "call_expression" "value" 0 0 [childTree "identifier" "function" 8 16 []]]
  let elements := plainTree "jsx_element" [
    childTree "jsx_opening_element" "open_tag" 0 0 [childTree "identifier" "name" 17 18 []],
    plainTree "jsx_self_closing_element" [childTree "identifier" "name" 17 18 []]]
  plainTree "program" [plainTree "export_statement" [
    childTree "function_declaration" "declaration" 0 0 [
      childTree "identifier" "name" 0 1 [],
      childTree "formal_parameters" "parameters" 0 0 [
        plainTree "object_pattern" [wordTree "shorthand_property_identifier_pattern" 2 3]],
      childTree "statement_block" "body" 0 0 [state, elements]]]]

def smallSource : RawText :=
  .ofString "F p n s useState b"

def smallFacts : Facts :=
  .ofTree smallSource.clean none (smallTree.resolve smallSource.encode)

theorem smallTree_analyze_framed :
    SyntaxParser.CountsIn32Bits (fun _ _ => smallTree) ∧
      analyze (fun _ _ => smallTree) smallSource none = .ok smallFacts ∧
      ∃ l width height, build (some smallFacts) = .ok l ∧ l.Framed width height := by
  have counted : SyntaxParser.CountsIn32Bits (fun _ _ => smallTree) := by
    intro grammar text
    have small : smallTree.size < 2 ^ 32 := by decide
    exact small
  have analyzed : analyze (fun _ _ => smallTree) smallSource none = .ok smallFacts := by
    decide +kernel
  refine ⟨counted, analyzed, ?_⟩
  rcases build_analyze_framed counted smallSource none with
    ⟨failed, -⟩ | ⟨facts, l, width, height, same, built, framed⟩
  · rw [analyzed] at failed
    cases failed
  · rw [analyzed] at same
    cases same
    exact ⟨l, width, height, built, framed⟩

end Graph.Layout

end RenderFlow
