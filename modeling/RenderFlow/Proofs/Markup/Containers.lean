import Mathlib.Data.List.Forall2
import RenderFlow.Proofs.Markup.Listing

/-!
What an element's own markup binds, told without the search for it. A fragment hands on the elements
below it but not the names: those in its containers are bound by no element. Main statement:
`Tree.elements_bind_iff`.
-/
namespace RenderFlow

namespace Tree

/-- An identifier, or a chain of member expressions that starts with it. -/
inductive StartsWith : SyntaxNode → SyntaxNode → Prop where
  | name {t : SyntaxNode} (own : t.kind = "identifier") : StartsWith t t
  | member {t object name : SyntaxNode} (chain : t.kind = "member_expression")
      (given : t.child? "object" = some object) (starts : StartsWith object name) :
      StartsWith t name

theorem memberRoot?_of_name {t : SyntaxNode} (own : t.kind = "identifier") :
    t.memberRoot? = some t := by
  rw [memberRoot?]
  simp [own]

theorem memberRoot?_of_member {t object : SyntaxNode} (chain : t.kind = "member_expression")
    (given : t.child? "object" = some object) : t.memberRoot? = object.memberRoot? := by
  rw [memberRoot?, if_pos (beq_iff_eq.mpr chain)]
  split
  · rename_i found
    rw [Option.some.inj (given.symm.trans found)]
  · rename_i missing
    rw [given] at missing
    cases missing

theorem memberRoot?_eq_some_iff {t name : SyntaxNode} :
    t.memberRoot? = some name ↔ t.StartsWith name := by
  constructor
  · intro found
    induction t using memberRoot?.induct with
    | case1 t chain object given ih =>
      rw [memberRoot?_of_member (beq_iff_eq.mp chain) given] at found
      exact .member (beq_iff_eq.mp chain) given (ih found)
    | case2 t chain missing =>
      rw [memberRoot?, if_pos chain] at found
      split at found
      · rename_i given
        rw [missing] at given
        cases given
      · cases found
    | case3 t other own =>
      rw [memberRoot?_of_name (beq_iff_eq.mp own)] at found
      cases found
      exact .name (beq_iff_eq.mp own)
    | case4 t other none_own =>
      rw [memberRoot?, if_neg other, if_neg none_own] at found
      cases found
  · intro starts
    induction starts with
    | name own => exact memberRoot?_of_name own
    | member chain given _ ih => rw [memberRoot?_of_member chain given, ih]

def IsAbout (container name : SyntaxNode) : Prop :=
  ∃ first rest, container.visibleChildren = first :: rest ∧ first.StartsWith name

theorem boundIdentifier?_eq_some_iff {container name : SyntaxNode} :
    container.boundIdentifier? = some name ↔ container.IsAbout name := by
  unfold boundIdentifier? IsAbout
  cases container.visibleChildren with
  | nil => simp
  | cons first rest => simp [memberRoot?_eq_some_iff]

/-- An attribute of the element's tag is given a container that is about a name. -/
def HasAttribute (t key name : SyntaxNode) : Prop :=
  ∃ tag part container rest, t.openingTag? = some tag ∧ part ∈ tag.visibleChildren ∧
    part.kind = "jsx_attribute" ∧ part.visibleChildren = key :: container :: rest ∧
    key.kind = "property_identifier" ∧ container.kind = "jsx_expression" ∧ container.IsAbout name

def HasContainer (t container : SyntaxNode) : Prop :=
  container ∈ t.visibleChildren ∧ container.kind = "jsx_expression"

/-- A name is bound in an attribute, or in a container between the two tags of the element. -/
def BindsName (t : SyntaxNode) (text : String) : Prop :=
  (∃ key name, t.HasAttribute key name ∧ name.text = text) ∨
    t.kind = "jsx_element" ∧
      ∃ container name, t.HasContainer container ∧ container.IsAbout name ∧ name.text = text

def AttachesRef (t : SyntaxNode) (text : String) : Prop :=
  ∃ key name, t.HasAttribute key name ∧ key.text = "ref" ∧ name.text = text

theorem boundAttribute?_eq_some_iff {t key name : SyntaxNode} :
    t.boundAttribute? = some (key, name) ↔ t.kind = "jsx_attribute" ∧
      ∃ container rest, t.visibleChildren = key :: container :: rest ∧
        key.kind = "property_identifier" ∧ container.kind = "jsx_expression" ∧
        container.IsAbout name := by
  unfold boundAttribute?
  by_cases attached : t.kind = "jsx_attribute"
  · rw [if_pos (beq_iff_eq.mpr attached)]
    rcases t.visibleChildren with _ | ⟨first, _ | ⟨second, rest⟩⟩
    · simp
    · simp
    · simp only [Bool.and_eq_true, beq_iff_eq, Option.ite_none_right_eq_some, Option.map_eq_some_iff,
        boundIdentifier?_eq_some_iff, Prod.mk.injEq, List.cons.injEq]
      constructor
      · rintro ⟨⟨keyed, contained⟩, found, binds, rfl, rfl⟩
        exact ⟨attached, second, rest, ⟨rfl, rfl, rfl⟩, keyed, contained, binds⟩
      · rintro ⟨-, container, others, ⟨rfl, rfl, rfl⟩, keyed, contained, binds⟩
        exact ⟨⟨keyed, contained⟩, name, binds, rfl, rfl⟩
  · rw [if_neg (by simpa using attached)]
    simp [attached]

theorem mem_boundAttributes {t key name : SyntaxNode} :
    (key, name) ∈ t.boundAttributes ↔ t.HasAttribute key name := by
  simp only [boundAttributes, HasAttribute, List.mem_flatMap, List.mem_filterMap, Option.mem_toList,
    boundAttribute?_eq_some_iff]
  constructor
  · rintro ⟨tag, opens, part, within, attached, container, rest, given⟩
    exact ⟨tag, part, container, rest, opens, within, attached, given⟩
  · rintro ⟨tag, part, container, rest, opens, within, attached, given⟩
    exact ⟨tag, opens, part, within, attached, container, rest, given⟩

theorem mem_boundContents {t name : SyntaxNode} : name ∈ t.boundContents ↔
    t.kind = "jsx_element" ∧ ∃ container, t.HasContainer container ∧ container.IsAbout name := by
  unfold boundContents HasContainer
  by_cases paired : t.kind = "jsx_element"
  · simp [paired, List.mem_filterMap, List.mem_filter, boundIdentifier?_eq_some_iff]
  · simp [paired]

theorem mem_boundProps {t : SyntaxNode} {text : String} :
    text ∈ t.boundProps ↔ t.BindsName text := by
  rw [boundProps, mem_distinct, List.map_append, List.mem_append]
  refine or_congr ?_ ?_
  · simp only [List.map_map, List.mem_map, Prod.exists, mem_boundAttributes, Function.comp_apply]
  · simp only [List.mem_map, mem_boundContents]
    constructor
    · rintro ⟨name, ⟨paired, container, holds, about⟩, spelled⟩
      exact ⟨paired, container, name, holds, about, spelled⟩
    · rintro ⟨paired, container, name, holds, about, spelled⟩
      exact ⟨name, ⟨paired, container, holds, about⟩, spelled⟩

theorem mem_boundRefs {t : SyntaxNode} {text : String} :
    text ∈ t.boundRefs ↔ t.AttachesRef text := by
  simp only [boundRefs, mem_distinct, List.mem_map, List.mem_filter, Prod.exists,
    mem_boundAttributes, beq_iff_eq, AttachesRef, and_assoc]

end Tree

def Element.IsOf (e : Element) (t : SyntaxNode) : Prop :=
  ∃ name, t.tagName? = some name ∧ Markup.ofElement e = .ofNode t name

theorem Element.IsOf.mem_props {e : Element} {t : SyntaxNode} (own : e.IsOf t) (text : String) :
    text ∈ e.props ↔ t.BindsName text := by
  obtain ⟨name, -, same⟩ := own
  have props : e.props = t.boundProps := congrArg Markup.props same
  rw [props, Tree.mem_boundProps]

theorem Element.IsOf.mem_refProps {e : Element} {t : SyntaxNode} (own : e.IsOf t) (text : String) :
    text ∈ e.refProps ↔ t.AttachesRef text := by
  obtain ⟨name, -, same⟩ := own
  have refs : e.refProps = t.boundRefs := congrArg Markup.refProps same
  rw [refs, Tree.mem_boundRefs]

namespace Tree

theorem forall₂_isOf {ts : List SyntaxNode} {es : List Element}
    (listed : es.map Markup.ofElement = ts.filterMap markup?) :
    List.Forall₂ (fun t e => Element.IsOf e t) (ts.filter (·.tagName?.isSome)) es := by
  induction ts generalizing es with
  | nil =>
    rw [List.map_eq_nil_iff.mp listed]
    exact .nil
  | cons t rest ih =>
    cases tag : t.tagName? with
    | none =>
      rw [List.filter_cons_of_neg (by simp [tag])]
      rw [List.filterMap_cons_none (by rw [markup?, tag]; rfl)] at listed
      exact ih listed
    | some name =>
      rw [List.filterMap_cons_some (by rw [markup?, tag]; rfl)] at listed
      obtain ⟨e, others, rfl, own, later⟩ := List.map_eq_cons_iff.mp listed
      rw [List.filter_cons_of_pos (by simp [tag])]
      exact .cons ⟨name, tag, own⟩ (ih later)

theorem elements_isOf (root : SyntaxNode) :
    List.Forall₂ (fun t e => Element.IsOf e t) (root.walk.filter (·.tagName?.isSome))
      root.elements :=
  forall₂_isOf (map_ofElement_elements root)

def IsFragment (t : SyntaxNode) : Prop :=
  t.kind = "jsx_element" ∧ t.tagName? = none

/-- The container is a child of the node, or lies below it in nested fragments. -/
inductive Encloses : SyntaxNode → SyntaxNode → Prop where
  | child {t container : SyntaxNode} (holds : t.HasContainer container) : Encloses t container
  | fragment {t f container : SyntaxNode} (below : f ∈ t.visibleChildren) (transparent : f.IsFragment)
      (holds : Encloses f container) : Encloses t container

/-- Which names the elements of a tree bind: those of their attributes and of the containers between
their two tags. So a name in a container that is enclosed otherwise, in fragments or in a tag that
closes itself, is bound by the element only if its own markup binds it too. -/
theorem elements_bind_iff (root : SyntaxNode) :
    List.Forall₂ (fun t e =>
        (∀ text, text ∈ e.props ↔ t.BindsName text) ∧
        ((∀ container name, t.Encloses container → container.IsAbout name → name.text ∈ e.props) ↔
          ∀ container name, t.Encloses container →
            ¬ (t.kind = "jsx_element" ∧ t.HasContainer container) → container.IsAbout name →
            t.BindsName name.text))
      (root.walk.filter (·.tagName?.isSome)) root.elements := by
  refine (elements_isOf root).imp fun t e own => ⟨own.mem_props, ?_⟩
  simp only [own.mem_props]
  constructor
  · intro all container name encloses _ about
    exact all container name encloses about
  · intro hidden container name encloses about
    by_cases own_child : t.kind = "jsx_element" ∧ t.HasContainer container
    · exact .inr ⟨own_child.1, container, name, own_child.2, about, rfl⟩
    · exact hidden container name encloses own_child about

/-- The markup `<div><>{count}</></div>`. -/
def shelteredMarkup : SyntaxNode :=
  let part (kind : String) (field : Option String) (start stop : Nat) (below : List (Tree Span)) :
      Tree Span :=
    .node ⟨kind, field, start, stop, true, false, false, 0⟩ below
  let sign (text : String) (start stop : Nat) : Tree Span :=
    .node ⟨text, none, start, stop, false, false, false, 0⟩ []
  Tree.resolve (RawText.ofString "<div><>\x7bcount\x7d</></div>").encode <|
    part "jsx_element" none 0 23 [
      part "jsx_opening_element" (some "open_tag") 0 5 [
        sign "<" 0 1, part "identifier" (some "name") 1 4 [], sign ">" 4 5],
      part "jsx_element" none 5 17 [
        part "jsx_opening_element" (some "open_tag") 5 7 [sign "<" 5 6, sign ">" 6 7],
        part "jsx_expression" none 7 14 [
          sign "\x7b" 7 8, part "identifier" none 8 13 [], sign "\x7d" 13 14],
        part "jsx_closing_element" none 14 17 [sign "</" 14 16, sign ">" 16 17]],
      part "jsx_closing_element" none 17 23 [
        sign "</" 17 19, part "identifier" (some "name") 19 22 [], sign ">" 22 23]]

/-- The one element here does not bind the name in the fragment. -/
theorem fragment_hides_name :
    (∃ container name, shelteredMarkup.Encloses container ∧ container.IsAbout name ∧
      name.text = "count") ∧
    shelteredMarkup.elements.map (·.component) = ["div"] ∧
      shelteredMarkup.elements.map (·.props) = [[]] := by
  have found : ∃ f ∈ shelteredMarkup.visibleChildren, f.kind = "jsx_element" ∧ f.tagName?.isNone ∧
      ∃ container ∈ f.visibleChildren, container.kind = "jsx_expression" ∧
        container.boundIdentifier?.map text = some "count" := by
    decide +kernel
  refine ⟨?_, by decide +kernel, by decide +kernel⟩
  obtain ⟨f, below, paired, nameless, container, within, contains, bound⟩ := found
  obtain ⟨name, about, spelled⟩ := Option.map_eq_some_iff.mp bound
  have transparent : f.IsFragment := ⟨paired, Option.isNone_iff_eq_none.mp nameless⟩
  exact ⟨container, name, .fragment below transparent (.child ⟨within, contains⟩),
    boundIdentifier?_eq_some_iff.mp about, spelled⟩

end Tree

end RenderFlow
