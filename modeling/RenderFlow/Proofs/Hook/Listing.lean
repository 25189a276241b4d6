import RenderFlow.Proofs.Hook.Gathering
import RenderFlow.Proofs.Syntax.Order

/-!
How the records of a walk are listed. A visit leaves at most one effect, callback or variable, at the
place of its node, so these follow the walk: `places_draftsFrom`. Within a record no name is listed
twice.
-/
namespace RenderFlow

open scoped List

/-- What lies in a store or a query is global, and all else belongs to the component. -/
def Hook.IsScoped (h : Hook) : Prop :=
  h.scope = if h.kind = .externalStore ∨ h.kind = .asyncQuery then .global else .component

structure Effect.Distinct (e : Effect) : Prop where
  setters : e.setters.Nodup
  refReads : e.refReads.Nodup
  refWrites : e.refWrites.Nodup
  externalCalls : e.externalCalls.Nodup

structure Callback.Distinct (c : Callback) : Prop where
  dependencies : c.dependencies.Nodup
  setters : c.setters.Nodup
  externalCalls : c.externalCalls.Nodup

structure Variable.Distinct (v : Variable) : Prop where
  dependencies : v.dependencies.Nodup
  own : v.name ∉ v.dependencies

theorem HookKind.isGlobal_iff (kind : HookKind) :
    kind.isGlobal ↔ kind = .externalStore ∨ kind = .asyncQuery := by
  cases kind <;> decide

theorem Hook.IsScoped.scope_eq_global_iff {h : Hook} (lives : h.IsScoped) :
    h.scope = .global ↔ h.kind.isGlobal = true := by
  rw [HookKind.isGlobal_iff, show h.scope = _ from lives]
  by_cases global : h.kind = .externalStore ∨ h.kind = .asyncQuery
  · rw [if_pos global]
    exact iff_of_true rfl global
  · rw [if_neg global]
    exact iff_of_false nofun global

namespace BodyScan

variable (trackRefs : Bool) (function : Option SyntaxNode)

theorem nodup_setters : (ofFunction trackRefs function).setters.Nodup :=
  nodup_distinct _

theorem nodup_externalCalls : (ofFunction trackRefs function).externalCalls.Nodup :=
  nodup_distinct _

theorem nodup_refReads : (ofFunction trackRefs function).refReads.Nodup := by
  cases trackRefs with
  | true => exact nodup_distinct _
  | false => exact List.nodup_nil

theorem nodup_refWrites : (ofFunction trackRefs function).refWrites.Nodup := by
  cases trackRefs with
  | true => exact nodup_distinct _
  | false => exact List.nodup_nil

end BodyScan

theorem Effect.distinct_ofCall (id : String) (kind : EffectKind) (globalNames : List String)
    (call : SyntaxNode) : (ofCall id kind globalNames call).Distinct where
  setters := BodyScan.nodup_setters true _
  refReads := BodyScan.nodup_refReads true _
  refWrites := BodyScan.nodup_refWrites true _
  externalCalls := BodyScan.nodup_externalCalls true _

theorem Callback.distinct_ofCall (id : String) (call : Placed) : (ofCall id call).Distinct where
  dependencies := nodup_distinct _
  setters := BodyScan.nodup_setters false _
  externalCalls := BodyScan.nodup_externalCalls false _

theorem Tree.own_not_mem_initializerNames (value : Option SyntaxNode) (own : String) :
    own ∉ initializerNames value (some own) := by
  rw [initializerNames, mem_distinct, List.mem_filter]
  simp

namespace Declarations

theorem distinct_variableDraft (declarator : SyntaxNode) (name id : String) :
    (variableDraft declarator name id).Distinct where
  dependencies := nodup_distinct _
  own := Tree.own_not_mem_initializerNames _ name

theorem isScoped_hookDraft (imports : Imports) (call callee : SyntaxNode) (b : Binding)
    (id : String) : (hookDraft imports call callee b id).IsScoped := by
  simp only [Hook.IsScoped, hookDraft, HookKind.isGlobal_iff]

section Records

variable {imports : Imports} {globalNames : List String} {body : Placed}

theorem isScoped_of_mem_hooks {h : Hook} (made : h ∈ (collect imports globalNames body).hooks) :
    h.IsScoped := by
  obtain ⟨p, -, -, call, callee, pattern, -, -, b, -, number, rfl⟩ := exists_of_mem_hooks made
  exact isScoped_hookDraft imports call callee b _

theorem distinct_of_mem_effects {e : Effect}
    (made : e ∈ (collect imports globalNames body).effects) : e.Distinct := by
  obtain ⟨p, -, kind, -, number, known, rfl⟩ := exists_of_mem_effects made
  exact Effect.distinct_ofCall _ kind known p.node

theorem distinct_of_mem_callbacks {c : Callback}
    (made : c ∈ (collect imports globalNames body).callbacks) : c.Distinct := by
  obtain ⟨p, -, -, number, rfl⟩ := exists_of_mem_callbacks made
  exact Callback.distinct_ofCall _ p

theorem distinct_of_mem_locals {v : Variable}
    (made : v ∈ (collect imports globalNames body).locals) : v.Distinct := by
  rw [locals_collect] at made
  obtain ⟨draft, drafted, number, rfl⟩ := exists_draft_of_mem_numbered made
  obtain ⟨p, -, given⟩ := List.mem_flatMap.mp drafted
  unfold localsAt at given
  split at given
  · obtain ⟨name, -, rfl⟩ := List.mem_map.mp given
    exact distinct_variableDraft p.node name _
  · cases given

end Records

theorem nodup_foldl_addNew {names : List String} (nodup : names.Nodup) (added : List String) :
    (added.foldl addNew names).Nodup :=
  List.foldlRecOn added addNew nodup fun _ kept name _ => nodup_addNew kept name

theorem nodup_calledNames_collect (imports : Imports) (globalNames : List String)
    (body : Placed) : (collect imports globalNames body).calledNames.Nodup := by
  refine List.foldlRecOn (motive := fun d : Declarations => d.calledNames.Nodup) body.walk
    (visit imports) List.nodup_nil fun d kept p _ => ?_
  rw [visit_eq]
  exact nodup_foldl_addNew kept _

section Places

variable {α : Type} (imports : Imports)

/-- If a visit leaves its records at the place of its node, a walk lists them as it passes. -/
theorem places_draftsFrom {definedAt : α → Option Position} {stem : String}
    {drafts : Declarations → Placed → List (String → α)}
    (step : ∀ d p taken,
      (numbered stem taken (drafts d p)).map definedAt <+ [some p.node.position])
    (ps : List Placed) (d : Declarations) (taken : Nat) :
    (numbered stem taken (draftsFrom imports drafts d ps)).map definedAt <+
      ps.map fun p => some p.node.position := by
  induction ps generalizing d taken with
  | nil => exact List.Sublist.refl _
  | cons p rest ih =>
    rw [draftsFrom, numbered_append, List.map_append, List.map_cons, ← List.singleton_append]
    exact (step d p taken).append (ih _ _)

theorem places_effectsAt (d : Declarations) (p : Placed) (taken : Nat) :
    (numbered "effect" taken (effectsAt imports d p)).map (·.definedAt) <+
      [some p.node.position] := by
  unfold effectsAt
  cases (p.node.callKind? imports).bind HookKind.effectKind? with
  | none => exact List.nil_sublist _
  | some kind => exact List.Sublist.refl _

theorem places_callbacksAt (p : Placed) (taken : Nat) :
    (numbered "callback" taken (callbacksAt imports p)).map (·.definedAt) <+
      [some p.node.position] := by
  unfold callbacksAt
  split
  · exact List.Sublist.refl _
  · exact List.nil_sublist _

theorem places_localsAt (p : Placed) (taken : Nat) :
    (numbered "var" taken (localsAt p)).map (·.definedAt) <+ [some p.node.position] := by
  unfold localsAt
  split
  · cases p.node.plainName? with
    | none => exact List.nil_sublist _
    | some name => exact List.Sublist.refl _
  · exact List.nil_sublist _

variable {body : Placed} (order : Position.InOrder (body.node.walk.map Tree.position))
  (globalNames : List String)

include order in
theorem listed_draftsFrom {definedAt : α → Option Position} {stem : String}
    {drafts : Declarations → Placed → List (String → α)}
    (step : ∀ d p taken,
      (numbered stem taken (drafts d p)).map definedAt <+ [some p.node.position])
    (d : Declarations) :
    ListedInOrder definedAt (numbered stem 0 (draftsFrom imports drafts d body.walk)) := by
  refine .of_sublist ?_ order
  rw [← Tree.map_node_walk, List.map_map, List.map_map]
  exact places_draftsFrom imports step body.walk d 0

include order in
theorem listed_effects :
    ListedInOrder (·.definedAt) (collect imports globalNames body).effects := by
  rw [effects_collect]
  exact listed_draftsFrom imports order (places_effectsAt imports) _

include order in
theorem listed_callbacks :
    ListedInOrder (·.definedAt) (collect imports globalNames body).callbacks := by
  rw [callbacks_collect, ← draftsFrom_eq_flatMap imports _ {}]
  exact listed_draftsFrom imports order (fun _ => places_callbacksAt imports) _

include order in
theorem listed_locals :
    ListedInOrder (·.definedAt) (collect imports globalNames body).locals := by
  rw [locals_collect, ← draftsFrom_eq_flatMap imports _ {}]
  exact listed_draftsFrom imports order (fun _ => places_localsAt) _

end Places

end Declarations

end RenderFlow
