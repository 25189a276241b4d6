import Mathlib.Data.List.Forall2
import RenderFlow.Proofs.Facts.Agreement
import RenderFlow.Proofs.Hook.Bindings
import RenderFlow.Proofs.Hook.Listing
import RenderFlow.Proofs.Syntax.Visible
import RenderFlow.Proofs.Text.FirstSeen

/-!
What each declarator of a body gives: nothing, hooks or one variable, as its initializer has it. Main
statement: `Declarations.collect_gives`.
-/
namespace RenderFlow

namespace Tree

/-- The node calls a plain name, which is spelled by this node. -/
def CallsName (t callee : SyntaxNode) : Prop :=
  t.kind = "call_expression" ∧ t.child? "function" = some callee ∧ callee.kind = "identifier"

/-- The node is a name that is read where it stands. -/
def Spells (t : SyntaxNode) (name : String) : Prop :=
  (t.kind = "identifier" ∨ t.kind = "shorthand_property_identifier") ∧ t.text = name

def HoldsFunction (declarator : SyntaxNode) : Prop :=
  ∃ value, declarator.child? "value" = some value ∧ value.isFunction = true

def HoldsCall (declarator call callee : SyntaxNode) : Prop :=
  declarator.child? "value" = some call ∧ call.CallsName callee

def NamesOne (declarator target : SyntaxNode) : Prop :=
  declarator.child? "name" = some target ∧ target.kind = "identifier"

/-- The bound names of a declarator, as they are extracted from its left side. Of the names that it binds
these are all that no default hides: `boundHere_spec`. -/
def boundHere (declarator : SyntaxNode) : List Binding :=
  ((declarator.child? "name").map bindings).getD []

/-- The initializer of a declarator and all that is visible below it, in the order of the source. -/
def initializerParts (declarator : SyntaxNode) : List Placed :=
  ((declarator.child? "value").map fun value => Placed.visibleParts ⟨value, some declarator⟩).getD []

end Tree

/-- The record that the call of a plain name makes of one name that its result is bound to. -/
structure Hook.IsBound (h : Hook) (imports : Imports) (call callee : SyntaxNode) (b : Binding) :
    Prop where
  name : h.name = b.name
  kind : h.kind = .classify callee.text (imports.get? callee.text)
  scope : h.IsScoped
  definedAt : h.definedAt = some call.position
  origin : h.origin = ⟨imports.get? callee.text, some callee.text, b.pattern, b.index⟩

/-- The record of the one variable that a declarator names. It depends on the other names that are read
where it is initialized. -/
structure Variable.IsDeclared (v : Variable) (declarator target : SyntaxNode) : Prop where
  name : v.name = target.text
  definedAt : v.definedAt = some declarator.position
  dependencies : ListsFirst declarator.initializerParts
    (fun p name => p.node.Spells name ∧ name ≠ v.name) v.dependencies

/-- What a declarator gives. A pattern that is not initialized with a call of a plain name is dropped. -/
inductive Tree.Gives (imports : Imports) (declarator : SyntaxNode) :
    List Hook → List Variable → Prop where
  | function (held : declarator.HoldsFunction) : Gives imports declarator [] []
  | oneHook {call callee target : SyntaxNode} {h : Hook} (held : declarator.HoldsCall call callee)
      (named : declarator.NamesOne target)
      (bound : h.IsBound imports call callee ⟨target, .identifier, 0⟩) :
      Gives imports declarator [h] []
  | manyHooks {call callee : SyntaxNode} {hooks : List Hook} (held : declarator.HoldsCall call callee)
      (pattern : ∀ target, ¬ declarator.NamesOne target)
      (bound : List.Forall₂ (fun b h => h.IsBound imports call callee b) declarator.boundHere hooks) :
      Gives imports declarator hooks []
  | oneLocal {target : SyntaxNode} {v : Variable} (value : ¬ declarator.HoldsFunction)
      (uncalled : ∀ call callee, ¬ declarator.HoldsCall call callee)
      (named : declarator.NamesOne target) (declared : v.IsDeclared declarator target) :
      Gives imports declarator [] [v]
  | dropped (value : ¬ declarator.HoldsFunction)
      (uncalled : ∀ call callee, ¬ declarator.HoldsCall call callee)
      (pattern : ∀ target, ¬ declarator.NamesOne target) : Gives imports declarator [] []

namespace Tree

variable {declarator : SyntaxNode}

theorem holdsFunction_iff :
    declarator.HoldsFunction ↔ (declarator.child? "value").any (·.isFunction) = true :=
  (Option.any_eq_true _ _).symm

theorem holdsCall_iff {call callee : SyntaxNode} :
    declarator.HoldsCall call callee ↔ declarator.hookCall? = some (call, callee) := by
  rw [hookCall?_eq_some_iff, plainCallee?_eq_some_iff]
  rfl

theorem not_holdsCall_of_holdsFunction (held : declarator.HoldsFunction) (call callee : SyntaxNode) :
    ¬ declarator.HoldsCall call callee := by
  rw [holdsCall_iff, hookCall?_eq_none (holdsFunction_iff.mp held)]
  exact nofun

theorem hookCall?_eq_none_of_uncalled
    (uncalled : ∀ call callee, ¬ declarator.HoldsCall call callee) : declarator.hookCall? = none :=
  Option.eq_none_iff_forall_ne_some.mpr fun (call, callee) called =>
    uncalled call callee (holdsCall_iff.mpr called)

theorem namesOne_iff {target : SyntaxNode} :
    declarator.NamesOne target ↔ declarator.plainTarget? = some target :=
  plainTarget?_eq_some_iff.symm

theorem boundHere_spec (declarator : SyntaxNode) :
    declarator.boundHere.Sublist (((declarator.child? "name").map boundNames).getD []) ∧
      (declarator.boundHere = ((declarator.child? "name").map boundNames).getD [] ↔
        ∀ pattern ∈ declarator.child? "name", ¬ pattern.HidesName) := by
  simpa [boundHere] using bindings_spec_of_option id (declarator.child? "name")

theorem boundHere_of_namesOne {target : SyntaxNode} (named : declarator.NamesOne target) :
    declarator.boundHere = [⟨target, .identifier, 0⟩] := by
  rw [boundHere, named.1, Option.map_some, Option.getD_some, bindings_of_identifier named.2]

theorem initializerNames_eq (own : String) :
    initializerNames (declarator.child? "value") (some own) =
      distinct (declarator.initializerParts.filterMap fun p =>
        if p.node.isNameRead ∧ p.node.text ≠ own then some p.node.text else none) := by
  have walked : ((declarator.child? "value").map walk).getD [] =
      declarator.initializerParts.map (·.node) := by
    unfold initializerParts
    cases declarator.child? "value" with
    | none => rfl
    | some value =>
      simp only [Option.map_some, Option.getD_some, ← Placed.walk_eq_visibleParts, map_node_walk]
  rw [initializerNames, initializerReads, walked]
  congr 1
  induction declarator.initializerParts with
  | nil => rfl
  | cons p rest ih =>
    rw [List.map_cons, List.filterMap_cons, ← ih]
    by_cases read : p.node.isNameRead
    · by_cases same : p.node.text = own
      · simp [read, same]
      · simp [read, same, Ne.symm same]
    · simp [read]

theorem listsFirst_initializerNames (own : String) :
    ListsFirst declarator.initializerParts (fun p name => p.node.Spells name ∧ name ≠ own)
      (initializerNames (declarator.child? "value") (some own)) := by
  rw [initializerNames_eq]
  refine (listsFirst_distinct _ _).congr fun p _ name => ?_
  have read : p.node.isNameRead = true ↔
      p.node.kind = "identifier" ∨ p.node.kind = "shorthand_property_identifier" := by
    simp [isNameRead]
  rw [Option.ite_none_right_eq_some, Option.some.injEq, read, Spells]
  constructor
  · rintro ⟨⟨kind, other⟩, rfl⟩
    exact ⟨⟨kind, rfl⟩, other⟩
  · rintro ⟨⟨kind, rfl⟩, other⟩
    exact ⟨⟨kind, other⟩, rfl⟩

end Tree

namespace Declarations

variable {imports : Imports} {p : Placed}

theorem isBound_hookDraft (imports : Imports) (call callee : SyntaxNode) (b : Binding) (id : String) :
    (hookDraft imports call callee b id).IsBound imports call callee b :=
  ⟨rfl, rfl, isScoped_hookDraft imports call callee b id, rfl, rfl⟩

theorem isDeclared_variableDraft (declarator target : SyntaxNode) (id : String) :
    (variableDraft declarator target.text id).IsDeclared declarator target :=
  ⟨rfl, rfl, Tree.listsFirst_initializerNames target.text⟩

theorem forall₂_numbered {α β : Type} {R : β → α → Prop} {draft : β → String → α}
    (made : ∀ b id, R b (draft b id)) (stem : String) (taken : Nat) (bs : List β) :
    List.Forall₂ R bs (numbered stem taken (bs.map draft)) := by
  induction bs generalizing taken with
  | nil => exact .nil
  | cons b rest ih =>
    rw [List.map_cons, numbered_cons]
    exact .cons (made b _) (ih (taken + 1))

theorem hooksAt_of_holdsCall (declarator : p.node.kind = "variable_declarator")
    {call callee : SyntaxNode} (held : p.node.HoldsCall call callee) :
    hooksAt imports p = p.node.boundHere.map (hookDraft imports call callee) := by
  rw [hooksAt, if_pos (by simp [declarator]), Tree.holdsCall_iff.mp held]
  rfl

theorem hooksAt_of_uncalled (uncalled : ∀ call callee, ¬ p.node.HoldsCall call callee) :
    hooksAt imports p = [] := by
  simp [hooksAt, Tree.hookCall?_eq_none_of_uncalled uncalled]

theorem localsAt_of_holdsFunction (held : p.node.HoldsFunction) : localsAt p = [] := by
  simp [localsAt, Tree.holdsFunction_iff.mp held]

theorem localsAt_of_holdsCall {call callee : SyntaxNode} (held : p.node.HoldsCall call callee) :
    localsAt p = [] := by
  simp [localsAt, Tree.holdsCall_iff.mp held]

theorem localsAt_of_value (declarator : p.node.kind = "variable_declarator")
    (value : ¬ p.node.HoldsFunction) (uncalled : ∀ call callee, ¬ p.node.HoldsCall call callee) :
    localsAt p =
      p.node.plainTarget?.toList.map fun target => variableDraft p.node target.text := by
  have other : (p.node.child? "value").any (·.isFunction) = false :=
    Bool.eq_false_iff.mpr fun function => value (Tree.holdsFunction_iff.mpr function)
  rw [localsAt, declarator, other, Tree.hookCall?_eq_none_of_uncalled uncalled, Tree.plainName?]
  cases p.node.plainTarget? <;> rfl

theorem gives_numbered (declarator : p.node.kind = "variable_declarator") (hooks locals : Nat) :
    p.node.Gives imports (numbered "hook" hooks (hooksAt imports p))
      (numbered "var" locals (localsAt p)) := by
  by_cases value : p.node.HoldsFunction
  · rw [hooksAt_of_uncalled (Tree.not_holdsCall_of_holdsFunction value),
      localsAt_of_holdsFunction value]
    exact .function value
  by_cases called : ∃ call callee, p.node.HoldsCall call callee
  · obtain ⟨call, callee, held⟩ := called
    rw [hooksAt_of_holdsCall declarator held, localsAt_of_holdsCall held]
    -- A single name is bound as a whole, so its one hook has a case of its own.
    by_cases one : ∃ target, p.node.NamesOne target
    · obtain ⟨target, named⟩ := one
      rw [Tree.boundHere_of_namesOne named]
      exact .oneHook held named (isBound_hookDraft imports call callee _ _)
    · exact .manyHooks held (not_exists.mp one)
        (forall₂_numbered (isBound_hookDraft imports call callee) "hook" hooks _)
  · have uncalled : ∀ call callee, ¬ p.node.HoldsCall call callee := fun call callee held =>
      called ⟨call, callee, held⟩
    rw [hooksAt_of_uncalled uncalled, localsAt_of_value declarator value uncalled]
    cases named : p.node.plainTarget? with
    | none =>
      refine .dropped value uncalled fun target one => ?_
      rw [Tree.namesOne_iff, named] at one
      cases one
    | some target =>
      exact .oneLocal value uncalled (Tree.namesOne_iff.mpr named)
        (isDeclared_variableDraft p.node target _)

/-- What is gathered from nodes in a row is what the declarators among them give, wherever the numbers
of the records start. -/
theorem exists_outcomes (imports : Imports) (ps : List Placed) (hooks locals : Nat) :
    ∃ outcomes : List (List Hook × List Variable),
      List.Forall₂ (fun p outcome => p.node.Gives imports outcome.1 outcome.2)
        (ps.filter (·.node.kind == "variable_declarator")) outcomes ∧
      numbered "hook" hooks (ps.flatMap (hooksAt imports)) = outcomes.flatMap (·.1) ∧
      numbered "var" locals (ps.flatMap localsAt) = outcomes.flatMap (·.2) := by
  induction ps generalizing hooks locals with
  | nil => exact ⟨[], .nil, rfl, rfl⟩
  | cons p rest ih =>
    -- The later records are numbered on from those of this node.
    obtain ⟨outcomes, given, sameHooks, sameLocals⟩ :=
      ih (hooks + (hooksAt imports p).length) (locals + (localsAt p).length)
    rw [List.flatMap_cons, List.flatMap_cons, numbered_append, numbered_append, sameHooks, sameLocals]
    by_cases declarator : p.node.kind = "variable_declarator"
    · rw [List.filter_cons_of_pos (by simpa using declarator)]
      exact ⟨(_, _) :: outcomes, .cons (gives_numbered declarator hooks locals) given, rfl, rfl⟩
    · rw [List.filter_cons_of_neg (by simpa using declarator)]
      exact ⟨outcomes, given, by simp [hooksAt, declarator], by simp [localsAt, declarator]⟩

/-- A declarator of a function gives nothing, the call of a plain name gives one hook for each name that
it is assigned to, and any other initializer, or none, gives a variable where one name is declared. What
a body gives is what its declarators give, one after another, and those are counted that lie in the
initializers and functions of others. -/
theorem collect_gives (imports : Imports) (globalNames : List String) (body : Placed) :
    ∃ outcomes : List (List Hook × List Variable),
      List.Forall₂ (fun p outcome => p.node.Gives imports outcome.1 outcome.2)
        (body.visibleParts.filter (·.node.kind == "variable_declarator")) outcomes ∧
      (collect imports globalNames body).hooks = outcomes.flatMap (·.1) ∧
      (collect imports globalNames body).locals = outcomes.flatMap (·.2) := by
  rw [hooks_collect, locals_collect, Placed.walk_eq_visibleParts]
  exact exists_outcomes imports body.visibleParts 0 0

end Declarations

end RenderFlow
