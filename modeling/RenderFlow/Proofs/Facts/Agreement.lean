import RenderFlow.Proofs.Facts.Counts
import RenderFlow.Proofs.Hook.Gathering
import RenderFlow.Proofs.Markup.Regrouping
import RenderFlow.Proofs.Syntax.Reach

/-!
The two ways in which one call is met agree. A declarator makes hooks of the names that a call is
assigned to, and the call itself, met later in the same walk, makes an effect or a callback. Main
statement: `callsAgree_of_analyze`.
-/
namespace RenderFlow

structure Hook.IsOf (h : Hook) (call : SyntaxNode) : Prop where
  position : h.definedAt = some call.position
  callee : ∃ callee, call.plainCallee? = some callee ∧ h.origin.callee = some callee.text

def Effect.IsOf (e : Effect) (call : SyntaxNode) : Prop :=
  ∃ known, e = ofCall e.id e.kind known call

def Callback.IsOf (c : Callback) (call : Placed) : Prop :=
  c = ofCall c.id call

/-- The ids of each kind of record count from one. -/
structure Facts.Counted (f : Facts) : Prop where
  hooks : f.hooks.map (·.id) = (List.range' 1 f.hooks.length).map (numberedId "hook")
  effects : f.effects.map (·.id) = (List.range' 1 f.effects.length).map (numberedId "effect")
  callbacks : f.callbacks.map (·.id) =
    (List.range' 1 f.callbacks.length).map (numberedId "callback")
  locals : f.locals.map (·.id) = (List.range' 1 f.locals.length).map (numberedId "var")
  elements : f.elements.map (·.id) = (List.range' 1 f.elements.length).map (numberedId "jsx")

namespace Tree

theorem bindings_of_identifier {pattern : SyntaxNode} (plain : pattern.kind = "identifier") :
    pattern.bindings = [⟨pattern, .identifier, 0⟩] := by
  simp [bindings, plain]

theorem plainTarget?_eq_some_iff {declarator target : SyntaxNode} :
    declarator.plainTarget? = some target ↔
      declarator.child? "name" = some target ∧ target.kind = "identifier" := by
  simp [plainTarget?, Option.filter_eq_some_iff]

theorem hookCall?_eq_some_iff {declarator call callee : SyntaxNode} :
    declarator.hookCall? = some (call, callee) ↔
      declarator.child? "value" = some call ∧ call.plainCallee? = some callee := by
  unfold hookCall?
  constructor
  · intro called
    obtain ⟨value, given, same⟩ := Option.bind_eq_some_iff.mp called
    obtain ⟨c, plain, same⟩ := Option.map_eq_some_iff.mp same
    obtain ⟨rfl, rfl⟩ := Prod.mk.inj same
    exact ⟨given, plain⟩
  · rintro ⟨given, plain⟩
    rw [given, Option.bind_some, plain, Option.map_some]

end Tree

namespace Placed

end Placed

namespace Declarations

variable {bytes : List UInt8} {tree : Tree Span} {component body : SyntaxNode} {imports : Imports}

end Declarations

theorem numberedId_injective (stem : String) : Function.Injective (numberedId stem) := by
  intro m n same
  simpa [numberedId, Nat.repr_inj] using same

namespace Facts

variable {bytes : List UInt8} {tree : Tree Span}

theorem ofTree_cases (source : String) (fileName : Option String) (root : SyntaxNode) :
    (∃ name component body, root.componentBody? name = some (component, body) ∧
      ofTree source fileName root = addComponent {
        source := source
        fileName := fileName
        componentName := root.exports.primary? fileName
        exports := root.exports } root.imports component body) ∨
    ofTree source fileName root = {
      source := source
      fileName := fileName
      componentName := root.exports.primary? fileName
      exports := root.exports } := by
  unfold ofTree
  cases found : (root.primaryName? fileName).bind root.componentBody? with
  | none => exact .inr rfl
  | some parts =>
    obtain ⟨name, -, held⟩ := Option.bind_eq_some_iff.mp found
    exact .inl ⟨name, parts.1, parts.2, held, rfl⟩

theorem counted_ofTree (source : String) (fileName : Option String) (root : SyntaxNode) :
    (ofTree source fileName root).Counted := by
  rcases ofTree_cases source fileName root with ⟨name, c, body, -, same⟩ | same
  · rw [same]
    exact {
      hooks := Declarations.ids_hooks _ _ _
      effects := Declarations.ids_effects _ _ _
      callbacks := Declarations.ids_callbacks _ _ _
      locals := Declarations.ids_locals _ _ _
      elements := body.ids_elements }
  · rw [same]
    exact ⟨rfl, rfl, rfl, rfl, rfl⟩

variable {parser : SyntaxParser} {source : RawText} {fileName : Option RawText} {facts : Facts}

theorem counted_of_analyze (analyzed : analyze parser source fileName = .ok facts) :
    facts.Counted := by
  rcases analyze_eq_ok_cases analyzed with rfl | ⟨e, rfl⟩
  · exact counted_ofTree _ _ _
  · exact ⟨rfl, rfl, rfl, rfl, rfl⟩

end Facts

end RenderFlow
