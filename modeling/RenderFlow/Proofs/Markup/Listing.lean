import Mathlib.Data.List.Basic
import RenderFlow.Proofs.Markup.Scan
import RenderFlow.Proofs.Syntax.Order

/-!
The elements of a tree against its walk. An element is recorded before what is below it, so the list
of the elements is the walk with everything passed over that has no name in a tag:
`Tree.map_ofElement_elements`.
-/
namespace RenderFlow

open scoped List

structure Element.Distinct (e : Element) : Prop where
  props : e.props.Nodup
  refProps : e.refProps.Nodup
  refs : e.refProps ⊆ e.props

namespace Tree

mutual

theorem map_ofElement_records (parent : Option String) (depth number : Nat) :
    ∀ t : Tree Markup, (records parent depth number t).map Markup.ofElement = t.parts.map label
  | .node m below => by
    rw [records, parts, List.map_cons, List.map_cons, map_ofElement_recordsAll]
    rfl

theorem map_ofElement_recordsAll (parent : Option String) (depth number : Nat) :
    ∀ ts : List (Tree Markup),
      (recordsAll parent depth number ts).map Markup.ofElement = (partsAll ts).map label
  | [] => rfl
  | t :: rest => by
    rw [recordsAll, partsAll, List.map_append, List.map_append, map_ofElement_records,
      map_ofElement_recordsAll]

end

def markup? (t : SyntaxNode) : Option Markup :=
  t.tagName?.map (Markup.ofNode t)

theorem map_label_markup (t : SyntaxNode) :
    (partsAll t.markup).map label = t.walk.filterMap markup? := by
  induction t using visibleInduction with
  | step t ih =>
    have below : (partsAll (t.visibleChildren.flatMap markup)).map label =
        (t.visibleChildren.flatMap walk).filterMap markup? := by
      rw [partsAll_eq, List.flatMap_assoc, List.map_flatMap, List.filterMap_flatMap]
      refine List.flatMap_congr fun c visible => ?_
      rw [← ih c visible, partsAll_eq]
    rw [markup_eq, walk_eq]
    unfold markupOver
    cases tag : t.tagName? with
    | none =>
      rw [List.filterMap_cons_none (by rw [markup?, tag]; rfl)]
      exact below
    | some name =>
      rw [List.filterMap_cons_some (by rw [markup?, tag]; rfl), ← below, partsAll, parts, partsAll,
        List.append_nil, List.map_cons]
      rfl

/-- The elements in the order of the list are those of the walk. -/
theorem map_ofElement_elements (root : SyntaxNode) :
    root.elements.map Markup.ofElement = root.walk.filterMap markup? := by
  rw [elements_eq, flatten, map_ofElement_recordsAll, map_label_markup]

theorem exists_of_mem_elements {root : SyntaxNode} {e : Element} (within : e ∈ root.elements) :
    ∃ t ∈ root.walk, ∃ name, t.tagName? = some name ∧ Markup.ofElement e = .ofNode t name := by
  have listed : Markup.ofElement e ∈ root.walk.filterMap markup? := by
    rw [← map_ofElement_elements]
    exact List.mem_map_of_mem within
  obtain ⟨t, walked, own⟩ := List.mem_filterMap.mp listed
  obtain ⟨name, tag, same⟩ := Option.map_eq_some_iff.mp own
  exact ⟨t, walked, name, tag, same.symm⟩

theorem boundRefs_subset_boundProps (t : SyntaxNode) : t.boundRefs ⊆ t.boundProps := by
  intro name ref
  rw [boundRefs, mem_distinct] at ref
  obtain ⟨bound, kept, rfl⟩ := List.mem_map.mp ref
  rw [boundProps, mem_distinct, List.map_append, List.map_map]
  exact List.mem_append_left _ (List.mem_map_of_mem (List.mem_filter.mp kept).1)

theorem distinct_of_mem_elements {root : SyntaxNode} {e : Element} (within : e ∈ root.elements) :
    e.Distinct := by
  obtain ⟨t, -, name, -, same⟩ := exists_of_mem_elements within
  have props : e.props = t.boundProps := congrArg Markup.props same
  have refs : e.refProps = t.boundRefs := congrArg Markup.refProps same
  constructor
  · exact props ▸ nodup_distinct _
  · exact refs ▸ nodup_distinct _
  · rw [props, refs]
    exact boundRefs_subset_boundProps t

theorem places_markup (ts : List SyntaxNode) :
    (ts.filterMap markup?).map (·.definedAt) <+ (ts.map position).map some := by
  induction ts with
  | nil => exact List.Sublist.refl _
  | cons t rest ih =>
    cases tag : t.tagName? with
    | none =>
      rw [List.filterMap_cons_none (by rw [markup?, tag]; rfl)]
      exact ih.cons _
    | some name =>
      rw [List.filterMap_cons_some (by rw [markup?, tag]; rfl)]
      exact ih.cons_cons _

theorem listed_elements {root : SyntaxNode} (order : Position.InOrder (root.walk.map position)) :
    ListedInOrder (·.definedAt) root.elements := by
  have places : root.elements.map (·.definedAt) =
      (root.walk.filterMap markup?).map (·.definedAt) := by
    rw [← map_ofElement_elements, List.map_map]
    rfl
  exact .of_sublist (places ▸ places_markup root.walk) order

end Tree

end RenderFlow
