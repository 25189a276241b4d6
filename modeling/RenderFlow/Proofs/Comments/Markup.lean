import Mathlib.Data.Option.Basic
import RenderFlow.Markup.Elements
import RenderFlow.Proofs.Comments.Erasure
import RenderFlow.Source.Exports
import RenderFlow.Source.Imports

/-!
Markup, imports and exports of a bare tree. What is found as nodes is found bare, and what is read
from them is the same.
-/
namespace RenderFlow

namespace Tree

variable (t : SyntaxNode)

section Names

@[simp] theorem isDotted_bare : t.bare.isDotted = t.isDotted := by
  simp [isDotted]

@[simp] theorem isNamespaced_bare : t.bare.isNamespaced = t.isNamespaced := by
  simp [isNamespaced]

theorem dottedParts?_bare :
    t.bare.dottedParts? = t.dottedParts?.map (Prod.map bare bare) := by
  unfold dottedParts?
  rw [isDotted_bare, visibleChildren_bare, child?_bare, child?_bare]
  split
  · cases visible : t.visibleChildren with
    | nil => rfl
    | cons first rest =>
      have last : (bare first :: rest.map bare).getLast (List.cons_ne_nil _ _) =
          bare ((first :: rest).getLast (List.cons_ne_nil _ _)) := 
        @List.getLast_map _ _ bare (first :: rest) (List.cons_ne_nil _ _)
      simp only [List.map_cons, Option.map_some, Prod.map_apply, last, Option.getD_map]
  · rfl

/-- A name in dots is taken apart from the right, and comments between its parts are no parts. -/
theorem dottedChain_bare (found : List SyntaxNode) :
    t.bare.dottedChain (found.map bare) = (t.dottedChain found).map bare := by
  fun_induction dottedChain t found with
  | case1 t found object property joined ih =>
    rw [dottedChain, dottedParts?_bare, joined]
    exact ih
  | case2 t found single dotted =>
    rw [dottedChain, dottedParts?_bare, single, isDotted_bare, if_pos dotted]
    rfl
  | case3 t found single plain =>
    rw [dottedChain, dottedParts?_bare, single, isDotted_bare, if_neg plain]
    rfl

theorem namespaceParts_bare : t.bare.namespaceParts = t.namespaceParts.map bare := by
  unfold namespaceParts
  rw [visibleChildren_bare]
  rcases t.visibleChildren with _ | ⟨space, _ | ⟨name, _ | ⟨more, rest⟩⟩⟩ <;> rfl

@[simp] theorem nameParts_bare : t.bare.nameParts = t.nameParts.map bare := by
  have chain := dottedChain_bare t []
  simp only [nameParts, kind_bare, isDotted_bare, isNamespaced_bare, namespaceParts_bare]
  rw [List.map_nil] at chain
  rw [chain]
  split
  · rfl
  · split
    · rfl
    · split <;> rfl

@[simp] theorem elementName_bare : t.bare.elementName = t.elementName := by
  rw [elementName, nameParts_bare, isNamespaced_bare, elementName]
  cases t.nameParts with
  | nil => rfl
  | cons part rest => simp [Function.comp_def]

end Names

section Bound

@[simp] theorem openingTag?_bare : t.bare.openingTag? = t.openingTag?.map bare := by
  simp only [openingTag?, kind_bare, child?_bare]
  split <;> rfl

@[simp] theorem tagName?_bare : t.bare.tagName? = t.tagName?.map bare := by
  rw [tagName?, openingTag?_bare, tagName?]
  cases t.openingTag? with
  | none => rfl
  | some tag => simp

@[simp] theorem memberRoot?_bare : t.bare.memberRoot? = t.memberRoot?.map bare := by
  fun_induction memberRoot? t with
  | case1 t member object held ih =>
    rw [memberRoot?, kind_bare, if_pos member, child?_bare, held]
    exact ih
  | case2 t member missing =>
    rw [memberRoot?, kind_bare, if_pos member, child?_bare, missing]
    rfl
  | case3 t other name => rw [memberRoot?, kind_bare, if_neg other, if_pos name]; rfl
  | case4 t other unnamed => rw [memberRoot?, kind_bare, if_neg other, if_neg unnamed]; rfl

@[simp] theorem boundIdentifier?_bare :
    t.bare.boundIdentifier? = t.boundIdentifier?.map bare := by
  rw [boundIdentifier?, visibleChildren_bare, boundIdentifier?, List.head?_map]
  cases t.visibleChildren.head? with
  | none => rfl
  | some first => simp

@[simp] theorem boundAttribute?_bare :
    t.bare.boundAttribute? = t.boundAttribute?.map (Prod.map bare bare) := by
  unfold boundAttribute?
  rw [kind_bare, visibleChildren_bare]
  split
  · rcases t.visibleChildren with _ | ⟨key, _ | ⟨value, rest⟩⟩
    · rfl
    · rfl
    · simp only [List.map_cons, kind_bare, boundIdentifier?_bare]
      split
      · cases value.boundIdentifier? <;> rfl
      · rfl
  · rfl

@[simp] theorem boundAttributes_bare :
    t.bare.boundAttributes = t.boundAttributes.map (Prod.map bare bare) := by
  rw [boundAttributes, openingTag?_bare, boundAttributes]
  cases t.openingTag? with
  | none => rfl
  | some tag => simp [filterMap_bare boundAttribute?_bare]

@[simp] theorem boundContents_bare : t.bare.boundContents = t.boundContents.map bare := by
  rw [boundContents, kind_bare, visibleChildren_bare, boundContents, filter_kind_bare,
    filterMap_bare boundIdentifier?_bare]
  split <;> rfl

@[simp] theorem boundProps_bare : t.bare.boundProps = t.boundProps := by
  simp [boundProps, Function.comp_def]

@[simp] theorem boundRefs_bare : t.bare.boundRefs = t.boundRefs := by
  simp [boundRefs, List.filter_map, Function.comp_def]

@[simp] theorem boundReads_bare : t.bare.boundReads = t.boundReads.map bare := by
  simp [boundReads, List.flatMap_map, List.map_flatMap]

end Bound

section Imports

@[simp] theorem importedName?_bare : t.bare.importedName? = t.importedName?.map bare := by
  simp only [importedName?, kind_bare, child?_bare, ← Option.map_or]
  cases t.kind == "import_specifier" <;> rfl

@[simp] theorem importedNames_bare : t.bare.importedNames = t.importedNames.map bare := by
  unfold importedNames
  rw [kind_bare]
  split
  · rfl
  · simp [identifiers]
  · simp [filterMap_bare importedName?_bare]
  · rfl

@[simp] theorem importStatements_bare : t.bare.importStatements = t.importStatements.map bare := by
  simp [importStatements]

@[simp] theorem importParts?_bare :
    t.bare.importParts? = t.importParts?.map (Prod.map bare (List.map bare)) := by
  simp [importParts?, flatMap_bare importedNames_bare, Function.comp_def, List.map_flatMap,
    List.flatMap_map]

@[simp] theorem importBindings_bare : t.bare.importBindings = t.importBindings := by
  rw [importBindings, importParts?_bare, importBindings]
  cases t.importParts? with
  | none => rfl
  | some parts => simp [Function.comp_def]

@[simp] theorem imports_bare : t.bare.imports = t.imports := by
  simp [imports, List.flatMap_map]

@[simp] theorem importReads_bare : t.bare.importReads = t.importReads.map bare := by
  simp [importReads, filterMap_bare importParts?_bare, List.flatMap_map, List.map_flatMap]

end Imports

section Exports

@[simp] theorem functionDeclarator?_bare :
    t.bare.functionDeclarator? = t.functionDeclarator?.map bare := by
  simp only [functionDeclarator?, kind_bare, child?_bare, Option.bind_eq_bind]
  cases t.kind == "variable_declarator" with
  | false => rfl
  | true =>
    cases t.child? "name" with
    | none => rfl
    | some name =>
      cases t.child? "value" with
      | none => rfl
      | some value =>
        simp only [Option.map_some, Option.bind_some, kind_bare, isFunction_bare]
        cases name.kind == "identifier" && value.isFunction <;> rfl

@[simp] theorem declaredFunctions_bare :
    t.bare.declaredFunctions = t.declaredFunctions.map bare := by
  unfold declaredFunctions
  rw [kind_bare, child?_bare, visibleChildren_bare]
  split
  · cases t.child? "name" <;> rfl
  · split
    · exact filterMap_bare functionDeclarator?_bare _
    · rfl

@[simp] theorem exportStatements_bare : t.bare.exportStatements = t.exportStatements.map bare := by
  simp [exportStatements]

/-- The keyword is an anonymous child, so all children are asked for their kinds and no comment has
the one that counts. -/
@[simp] theorem isDefaultExport_bare : t.bare.isDefaultExport = t.isDefaultExport :=
  (IsBlind.of_kind (by decide)).any_children t

@[simp] theorem functionName?_bare : t.bare.functionName? = t.functionName?.map bare := by
  rw [functionName?, isFunction_bare, child?_bare, functionName?]
  split <;> rfl

@[simp] theorem defaultName?_bare : t.bare.defaultName? = t.defaultName?.map bare := by
  have declared (c : SyntaxNode) :
      c.bare.declaredFunctions.head? = c.declaredFunctions.head?.map bare := by
    rw [declaredFunctions_bare, List.head?_map]
  simp only [defaultName?, child?_bare, filter?_kind_bare, bind_bare functionName?_bare,
    @bind_bare _ (·.declaredFunctions.head?) bare declared, ← Option.map_or]

@[simp] theorem exportedName?_bare : t.bare.exportedName? = t.exportedName?.map bare := by
  simp only [exportedName?, kind_bare, child?_bare, ← Option.map_or, Option.bind_eq_bind]
  cases t.kind == "export_specifier" with
  | false => rfl
  | true =>
    cases (t.child? "alias").or (t.child? "name") with
    | none => rfl
    | some name =>
      simp only [Option.map_some, Option.bind_some, kind_bare]
      cases name.kind == "identifier" <;> rfl

@[simp] theorem namedExports_bare : t.bare.namedExports = t.namedExports.map bare := by
  have clause (c : SyntaxNode) : c.bare.visibleChildren.filterMap exportedName? =
      (c.visibleChildren.filterMap exportedName?).map bare := by
    rw [visibleChildren_bare, filterMap_bare exportedName?_bare]
  have declared : (t.bare.child? "declaration").toList =
      (t.child? "declaration").toList.map bare := by
    rw [child?_bare, Option.toList_map]
  rw [namedExports, declared, flatMap_bare declaredFunctions_bare, visibleChildren_bare,
    filter_kind_bare, flatMap_bare clause, ← List.map_append, namedExports]

@[simp] theorem defaultNames_bare : t.bare.defaultNames = t.defaultNames.map bare := by
  simp [defaultNames, filter_bare isDefaultExport_bare, filterMap_bare defaultName?_bare]

@[simp] theorem componentNames_bare : t.bare.componentNames = t.componentNames.map bare := by
  simp [componentNames, List.filter_map, Function.comp_def, flatMap_bare namedExports_bare]

@[simp] theorem exports_bare : t.bare.exports = t.exports := by
  simp [exports, Function.comp_def]

@[simp] theorem exportReads_bare : t.bare.exportReads = t.exportReads.map bare := by
  simp [exportReads]

end Exports

end Tree

namespace MarkupScan

@[simp] theorem step_bare (m : MarkupScan) (e : Event) : m.step e.bare = m.step e := by
  cases e with
  | enter t =>
    simp only [Event.bare, step, Tree.tagName?_bare]
    cases t.tagName? with
    | none => rfl
    | some name => simp [enter]
  | leave t => simp [Event.bare, step]

end MarkupScan

namespace Tree

/-- The stack of open elements takes the same steps, as comments are never on it. -/
@[simp] theorem elements_bare (t : SyntaxNode) : t.bare.elements = t.elements := by
  have same : MarkupScan.run t.bare = MarkupScan.run t := by
    simp [MarkupScan.run, List.foldlM_map]
  rw [elements, same, elements]

@[simp] theorem elementReads_bare (t : SyntaxNode) :
    t.bare.elementReads = t.elementReads.map bare := by
  rw [elementReads, walk_bare, elementReads]
  refine flatMap_bare (fun c => ?_) _
  rw [tagName?_bare]
  cases c.tagName? with
  | none => rfl
  | some name => simp

end Tree

end RenderFlow
