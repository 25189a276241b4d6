import Mathlib.Data.List.Basic
import Mathlib.Data.List.Flatten
import RenderFlow.Facts.Analysis
import RenderFlow.Proofs.Hook.Gathering

/-!
Which names a pattern binds, and which of them are found. A default hides a name where it stands in an
array pattern or behind a renamed key; every other plain name of a pattern is found, in order. Main
statement: `Declarations.bindings_complete_iff`.
-/
namespace RenderFlow

section Lists

variable {α β : Type} {items : List α}

theorem flatMap_eq_flatMap_iff {f g : α → List β} (part : ∀ a ∈ items, (f a).Sublist (g a)) :
    items.flatMap f = items.flatMap g ↔ ∀ a ∈ items, f a = g a := by
  induction items with
  | nil => simp
  | cons a rest ih =>
    obtain ⟨first, others⟩ := List.forall_mem_cons.mp part
    rw [List.flatMap_cons, List.flatMap_cons, List.forall_mem_cons, ← ih others]
    constructor
    · intro same
      have short := first.length_le
      have shorter := (List.Sublist.flatMap_right rest others).length_le
      have lengths := congrArg List.length same
      rw [List.length_append, List.length_append] at lengths
      have whole : f a = g a := first.eq_of_length (by omega)
      rw [whole] at same
      exact ⟨whole, List.append_cancel_left same⟩
    · rintro ⟨whole, same⟩
      rw [whole, same]

section FilterMap

variable {f g : α → Option β} (part : ∀ a ∈ items, f a = none ∨ f a = g a)

include part

theorem toList_sublist_toList : ∀ a ∈ items, ((f a).toList).Sublist (g a).toList := by
  intro a within
  rcases part a within with nothing | same
  · rw [nothing]
    exact List.nil_sublist _
  · rw [same]

theorem filterMap_sublist_filterMap : (items.filterMap f).Sublist (items.filterMap g) := by
  rw [List.filterMap_eq_flatMap_toList, List.filterMap_eq_flatMap_toList]
  exact List.Sublist.flatMap_right items (toList_sublist_toList part)

theorem filterMap_eq_filterMap_iff :
    items.filterMap f = items.filterMap g ↔ ∀ a ∈ items, f a = g a := by
  rw [List.filterMap_eq_flatMap_toList, List.filterMap_eq_flatMap_toList,
    flatMap_eq_flatMap_iff (toList_sublist_toList part)]
  refine forall₂_congr fun a _ => ?_
  cases f a <;> cases g a <;> simp

end FilterMap

theorem map_eq_map_iff_of_sublist {xs ys : List α} (part : xs.Sublist ys) (f : α → β) :
    xs.map f = ys.map f ↔ xs = ys := by
  constructor
  · intro same
    exact part.eq_of_length (by simpa using congrArg List.length same)
  · exact congrArg (List.map f)

end Lists

namespace Tree

/-- The plain name that a part of a pattern binds, with a default or without one. -/
def localName? (t : SyntaxNode) : Option SyntaxNode :=
  match t.kind with
  | "identifier" => some t
  | "assignment_pattern" => (t.child? "left").filter (·.kind == "identifier")
  | _ => none

def propertyName? (t : SyntaxNode) : Option SyntaxNode :=
  match t.kind with
  | "shorthand_property_identifier_pattern" => some t
  | "object_assignment_pattern" =>
    (t.child? "left").filter fun left =>
      ["shorthand_property_identifier_pattern", "identifier"].contains left.kind
  | "pair_pattern" => (t.child? "value").bind localName?
  | _ => none

/-- What stands in an array pattern, each with the number of commas before it. -/
def places (ts : List SyntaxNode) : List (SyntaxNode × Nat) :=
  ts.mapIdx fun i t => (t, (ts.take i).countP (·.kind == ","))

/-- All plain names that a pattern binds at its top level. -/
def boundNames (pattern : SyntaxNode) : List Binding :=
  match pattern.kind with
  | "identifier" => [⟨pattern, .identifier, 0⟩]
  | "array_pattern" =>
    (places pattern.children).filterMap fun place =>
      place.1.localName?.map (⟨·, .array, place.2⟩)
  | "object_pattern" => (pattern.visibleChildren.filterMap propertyName?).map (⟨·, .object, 0⟩)
  | _ => []

def isDefaulted (t : SyntaxNode) : Bool :=
  t.kind == "assignment_pattern" && t.localName?.isSome

/-- A default stands in the array pattern, or behind a renamed key of the object pattern. -/
def HidesName (pattern : SyntaxNode) : Prop :=
  match pattern.kind with
  | "array_pattern" => ∃ t ∈ pattern.children, t.isDefaulted
  | "object_pattern" =>
    ∃ t ∈ pattern.visibleChildren, t.kind = "pair_pattern" ∧ (t.child? "value").any isDefaulted
  | _ => False

theorem map_fst_places (ts : List SyntaxNode) : (places ts).map Prod.fst = ts := by
  exact List.ext_getElem (by simp [places]) (by simp [places])

def elementTarget? (t : SyntaxNode) : Option SyntaxNode :=
  if t.kind == "identifier" then some t else none

theorem arrayBindings_eq (index : Nat) (ts : List SyntaxNode) :
    arrayBindings index ts =
      (ts.mapIdx fun i t => (t, index + (ts.take i).countP (·.kind == ","))).filterMap fun place =>
        place.1.elementTarget?.map (⟨·, .array, place.2⟩) := by
  induction ts generalizing index with
  | nil => rfl
  | cons t rest ih =>
    rw [arrayBindings, ih, ih, List.mapIdx_cons, List.filterMap_cons]
    by_cases comma : t.kind = ","
    · simp [comma, elementTarget?, Nat.add_assoc, Nat.add_comm 1]
    · by_cases name : t.kind = "identifier"
      · simp [name, elementTarget?]
      · simp [comma, name, elementTarget?]

theorem elementTarget?_cases (t : SyntaxNode) :
    t.elementTarget? = none ∨ t.elementTarget? = t.localName? := by
  by_cases name : t.kind = "identifier"
  · exact .inr (by simp [elementTarget?, localName?, name])
  · exact .inl (by simp [elementTarget?, name])

theorem localName?_of_kind {t : SyntaxNode} (name : t.kind ≠ "identifier")
    (assigned : t.kind ≠ "assignment_pattern") : t.localName? = none := by
  unfold localName?
  split <;> simp_all

theorem elementTarget?_eq_iff (t : SyntaxNode) :
    t.elementTarget? = t.localName? ↔ ¬ t.isDefaulted := by
  by_cases name : t.kind = "identifier"
  · simp [elementTarget?, localName?, isDefaulted, name]
  · have passed : t.elementTarget? = none := by simp [elementTarget?, name]
    rw [passed]
    by_cases assigned : t.kind = "assignment_pattern"
    · cases bound : t.localName? <;> simp [isDefaulted, assigned, bound]
    · simp [isDefaulted, localName?_of_kind name assigned]

theorem propertyTarget?_of_kind {t : SyntaxNode} (other : t.kind ≠ "pair_pattern") :
    t.propertyTarget? = t.propertyName? := by
  unfold propertyTarget? propertyName?
  split <;> simp_all

theorem propertyTarget?_of_pair {t : SyntaxNode} (pair : t.kind = "pair_pattern") :
    t.propertyTarget? = (t.child? "value").bind elementTarget? ∧
      t.propertyName? = (t.child? "value").bind localName? := by
  constructor
  · unfold propertyTarget?
    rw [pair]
    cases t.child? "value" with
    | none => rfl
    | some value => by_cases name : value.kind = "identifier" <;> simp [elementTarget?, name]
  · unfold propertyName?
    rw [pair]
    rfl

theorem propertyTarget?_cases (t : SyntaxNode) :
    t.propertyTarget? = none ∨ t.propertyTarget? = t.propertyName? := by
  by_cases pair : t.kind = "pair_pattern"
  · obtain ⟨target, name⟩ := propertyTarget?_of_pair pair
    rw [target, name]
    cases t.child? "value" with
    | none => exact .inl rfl
    | some value => exact value.elementTarget?_cases
  · exact .inr (propertyTarget?_of_kind pair)

theorem propertyTarget?_eq_iff (t : SyntaxNode) : t.propertyTarget? = t.propertyName? ↔
    ¬ (t.kind = "pair_pattern" ∧ (t.child? "value").any isDefaulted) := by
  by_cases pair : t.kind = "pair_pattern"
  · obtain ⟨target, name⟩ := propertyTarget?_of_pair pair
    rw [target, name]
    cases t.child? "value" with
    | none => simp
    | some value => simpa [pair] using value.elementTarget?_eq_iff
  · simp [pair, propertyTarget?_of_kind pair]

theorem arrayBindings_spec (ts : List SyntaxNode) :
    (arrayBindings 0 ts).Sublist
        ((places ts).filterMap fun place => place.1.localName?.map (⟨·, .array, place.2⟩)) ∧
      (arrayBindings 0 ts =
          (places ts).filterMap (fun place => place.1.localName?.map (⟨·, .array, place.2⟩)) ↔
        ¬ ∃ t ∈ ts, t.isDefaulted) := by
  have found : arrayBindings 0 ts =
      (places ts).filterMap fun place => place.1.elementTarget?.map (⟨·, .array, place.2⟩) := by
    rw [arrayBindings_eq]
    simp only [Nat.zero_add, places]
  have part : ∀ place ∈ places ts,
      place.1.elementTarget?.map (Binding.mk · .array place.2) = none ∨
        place.1.elementTarget?.map (Binding.mk · .array place.2) =
          place.1.localName?.map (Binding.mk · .array place.2) := fun place _ =>
    place.1.elementTarget?_cases.imp (by simp [·]) (by rw [·])
  rw [found]
  refine ⟨filterMap_sublist_filterMap part, (filterMap_eq_filterMap_iff part).trans ?_⟩
  have same (place : SyntaxNode × Nat) :
      place.1.elementTarget?.map (Binding.mk · .array place.2) =
        place.1.localName?.map (Binding.mk · .array place.2) ↔ ¬ place.1.isDefaulted := by
    rw [← elementTarget?_eq_iff]
    refine (Option.map_injective ?_).eq_iff
    intro t u same
    exact congrArg Binding.node same
  have each : (∀ place ∈ places ts, ¬ place.1.isDefaulted) ↔ ∀ t ∈ ts, ¬ t.isDefaulted := by
    rw [← List.forall_mem_map (f := Prod.fst) (P := fun t => ¬ isDefaulted t), map_fst_places]
  simp only [same, each, not_exists, not_and]

theorem objectBindings_spec (ts : List SyntaxNode) :
    (ts.filterMap propertyTarget?).Sublist (ts.filterMap propertyName?) ∧
      (ts.filterMap propertyTarget? = ts.filterMap propertyName? ↔
        ¬ ∃ t ∈ ts, t.kind = "pair_pattern" ∧ (t.child? "value").any isDefaulted) := by
  have part : ∀ t ∈ ts, t.propertyTarget? = none ∨ t.propertyTarget? = t.propertyName? :=
    fun t _ => t.propertyTarget?_cases
  refine ⟨filterMap_sublist_filterMap part, (filterMap_eq_filterMap_iff part).trans ?_⟩
  simp only [propertyTarget?_eq_iff, not_exists, not_and]

theorem bindings_spec (pattern : SyntaxNode) : pattern.bindings.Sublist pattern.boundNames ∧
    (pattern.bindings = pattern.boundNames ↔ ¬ pattern.HidesName) := by
  unfold bindings boundNames HidesName
  generalize pattern.kind = kind
  split
  · simp
  · exact arrayBindings_spec pattern.children
  · obtain ⟨part, whole⟩ := objectBindings_spec pattern.visibleChildren
    exact ⟨part.map _, (map_eq_map_iff_of_sublist part _).trans whole⟩
  · simp_all

theorem bindings_spec_of_option {α : Type} (tell : Binding → α) (pattern? : Option SyntaxNode) :
    (((pattern?.map bindings).getD []).map tell).Sublist
        (((pattern?.map boundNames).getD []).map tell) ∧
      (((pattern?.map bindings).getD []).map tell = ((pattern?.map boundNames).getD []).map tell ↔
        ∀ pattern ∈ pattern?, ¬ pattern.HidesName) := by
  cases pattern? with
  | none => simp
  | some pattern =>
    obtain ⟨part, whole⟩ := pattern.bindings_spec
    refine ⟨part.map tell, (map_eq_map_iff_of_sublist part tell).trans ?_⟩
    simpa using whole

def propPattern? (component : SyntaxNode) : Option SyntaxNode :=
  (((component.child? "parameters").bind (·.visibleChildren.head?)).bind parameterPattern?).filter
    (·.kind == "object_pattern")

theorem componentProps_eq (component : SyntaxNode) : component.componentProps =
    ((component.propPattern?.map bindings).getD []).map Binding.name := by
  have same : component.propBindings = (component.propPattern?.map bindings).getD [] := by
    unfold propBindings propPattern?
    dsimp only
    split
    · rename_i pattern found
      rw [found]
      rfl
    · rename_i missing
      rw [missing]
      rfl
  rw [componentProps, same]

def hookPattern? (t : SyntaxNode) : Option SyntaxNode :=
  if t.kind == "variable_declarator" && t.hookCall?.isSome then t.child? "name" else none

end Tree

def Binding.seat (b : Binding) : String × BindingPattern × Int :=
  (b.name, b.pattern, b.index)

def Hook.seat (h : Hook) : String × BindingPattern × Int :=
  (h.name, h.origin.pattern, h.origin.index)

namespace Declarations

theorem seats_hooksAt (imports : Imports) (p : Placed) :
    (hooksAt imports p).map (fun draft => (draft "").seat) =
      ((p.node.hookPattern?.map Tree.bindings).getD []).map Binding.seat := by
  unfold hooksAt Tree.hookPattern?
  by_cases declarator : p.node.kind = "variable_declarator"
  · cases called : p.node.hookCall? with
    | none => simp [declarator]
    | some found =>
      obtain ⟨call, callee⟩ := found
      simp only [declarator, beq_self_eq_true, if_true, Option.isSome_some, Bool.and_self,
        List.map_map]
      rfl
  · simp [declarator]

theorem seats_hooks_collect (imports : Imports) (globalNames : List String) (body : Placed) :
    (collect imports globalNames body).hooks.map Hook.seat =
      body.walk.flatMap fun p =>
        ((p.node.hookPattern?.map Tree.bindings).getD []).map Binding.seat := by
  rw [hooks_collect, map_numbered, List.map_flatMap]
  · exact congrArg (List.flatMap · body.walk) (funext fun p => seats_hooksAt imports p)
  · intro draft drafted name
    obtain ⟨p, -, given⟩ := List.mem_flatMap.mp drafted
    obtain ⟨-, call, callee, pattern, -, -, b, -, rfl⟩ := exists_of_mem_hooksAt given
    rfl

/-- Which plain names are found: those of a pattern, the props of a component and the hooks of a
body are all that are bound, in order and at their places, just where no default stands in an array
pattern or behind a renamed key. Elsewhere the names that such defaults hide are left out and nothing
else. -/
theorem bindings_complete_iff (pattern component : SyntaxNode) (imports : Imports)
    (globalNames : List String) (body : Placed) :
    (pattern.bindings.Sublist pattern.boundNames ∧
      (pattern.bindings = pattern.boundNames ↔ ¬ pattern.HidesName)) ∧
    (component.componentProps.Sublist
        (((component.propPattern?.map Tree.boundNames).getD []).map Binding.name) ∧
      (component.componentProps =
          ((component.propPattern?.map Tree.boundNames).getD []).map Binding.name ↔
        ∀ given ∈ component.propPattern?, ¬ given.HidesName)) ∧
    ((collect imports globalNames body).hooks.map Hook.seat =
        (body.walk.flatMap fun p =>
          ((p.node.hookPattern?.map Tree.boundNames).getD []).map Binding.seat) ↔
      ∀ p ∈ body.walk, ∀ given ∈ p.node.hookPattern?, ¬ given.HidesName) := by
  refine ⟨Tree.bindings_spec pattern, ?_, ?_⟩
  · rw [Tree.componentProps_eq]
    exact Tree.bindings_spec_of_option Binding.name component.propPattern?
  · have at_node (p : Placed) := Tree.bindings_spec_of_option Binding.seat p.node.hookPattern?
    rw [seats_hooks_collect, flatMap_eq_flatMap_iff fun p _ => (at_node p).1]
    simp only [(at_node _).2]

def patternPart (kind : String) (field : Option String) (start stop : Nat) (named : Bool)
    (below : List (Tree Span)) : Tree Span :=
  .node ⟨kind, field, start, stop, named, false, false, 0⟩ below

/-- The pattern `{ a: b = 1 }`. -/
def renamedPattern : SyntaxNode :=
  Tree.resolve (RawText.ofString "\x7b a: b = 1 \x7d").encode <|
    patternPart "object_pattern" none 0 12 true [
      patternPart "\x7b" none 0 1 false [],
      patternPart "pair_pattern" none 2 10 true [
        patternPart "property_identifier" none 2 3 true [],
        patternPart ":" none 3 4 false [],
        patternPart "assignment_pattern" (some "value") 5 10 true [
          patternPart "identifier" (some "left") 5 6 true [],
          patternPart "=" none 7 8 false [],
          patternPart "number" none 9 10 true []]],
      patternPart "\x7d" none 11 12 false []]

/-- The pattern `[n = 0, setN]`. -/
def defaultedPattern : SyntaxNode :=
  Tree.resolve (RawText.ofString "[n = 0, setN]").encode <|
    patternPart "array_pattern" none 0 13 true [
      patternPart "[" none 0 1 false [],
      patternPart "assignment_pattern" none 1 6 true [
        patternPart "identifier" (some "left") 1 2 true [],
        patternPart "=" none 3 4 false [],
        patternPart "number" none 5 6 true []],
      patternPart "," none 6 7 false [],
      patternPart "identifier" none 8 12 true [],
      patternPart "]" none 12 13 false []]

/-- A default hides the local name of a renamed property and the first name of an array pattern. -/
theorem defaults_hide_names :
    renamedPattern.boundNames.map Binding.seat = [("b", .object, 0)] ∧
      renamedPattern.bindings.map Binding.seat = [] ∧
      defaultedPattern.boundNames.map Binding.seat = [("n", .array, 0), ("setN", .array, 1)] ∧
      defaultedPattern.bindings.map Binding.seat = [("setN", .array, 1)] := by
  decide +kernel

end Declarations

end RenderFlow
