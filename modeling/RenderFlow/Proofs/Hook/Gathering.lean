import Mathlib.Data.Option.Basic
import RenderFlow.Hook.Declarations

/-!
What the walk over a body gathers, told for each node on its own. A visit adds the records of one node
behind those that are there, so a walk adds what its nodes give one after another: `hooks_walked` and
its like. Only an effect depends on what was met before it.
-/
namespace RenderFlow

def numberedId (stem : String) (number : Nat) : String :=
  stem ++ "-" ++ toString number

section Numbering

variable {α : Type}

/-- Records are drafted without their numbers, which go on after those that are taken. -/
def numbered (stem : String) (taken : Nat) (drafts : List (String → α)) : List α :=
  drafts.mapIdx fun index draft => draft (numberedId stem (taken + index + 1))

@[simp] theorem numbered_nil (stem : String) (taken : Nat) :
    numbered stem taken ([] : List (String → α)) = [] := rfl

theorem numbered_cons (stem : String) (taken : Nat) (draft : String → α)
    (rest : List (String → α)) :
    numbered stem taken (draft :: rest) =
      draft (numberedId stem (taken + 1)) :: numbered stem (taken + 1) rest := by
  simp only [numbered, List.mapIdx_cons, Nat.add_assoc, Nat.add_comm 1]

@[simp] theorem length_numbered (stem : String) (taken : Nat) (drafts : List (String → α)) :
    (numbered stem taken drafts).length = drafts.length := by
  simp [numbered]

theorem numbered_append (stem : String) (taken : Nat) (left right : List (String → α)) :
    numbered stem taken (left ++ right) =
      numbered stem taken left ++ numbered stem (taken + left.length) right := by
  induction left generalizing taken with
  | nil => rfl
  | cons draft rest ih =>
    rw [List.cons_append, numbered_cons, ih, numbered_cons, List.cons_append, List.length_cons,
      Nat.add_assoc, Nat.add_comm 1]

theorem map_numbered {β : Type} {f : α → β} {drafts : List (String → α)}
    (same : ∀ draft ∈ drafts, ∀ name, f (draft name) = f (draft "")) (stem : String) (taken : Nat) :
    (numbered stem taken drafts).map f = drafts.map fun draft => f (draft "") := by
  induction drafts generalizing taken with
  | nil => rfl
  | cons draft rest ih =>
    obtain ⟨first, others⟩ := List.forall_mem_cons.mp same
    rw [numbered_cons, List.map_cons, first, ih others, List.map_cons]

theorem exists_draft_of_mem_numbered {stem : String} {taken : Nat} {drafts : List (String → α)}
    {record : α} (within : record ∈ numbered stem taken drafts) :
    ∃ draft ∈ drafts, ∃ number, record = draft (numberedId stem number) := by
  obtain ⟨index, short, rfl⟩ := List.mem_mapIdx.mp within
  exact ⟨drafts[index], List.getElem_mem short, taken + index + 1, rfl⟩

theorem exists_mem_numbered {drafts : List (String → α)} {draft : String → α}
    (drafted : draft ∈ drafts) (stem : String) (taken : Nat) :
    ∃ number, draft (numberedId stem number) ∈ numbered stem taken drafts := by
  obtain ⟨index, short, rfl⟩ := List.mem_iff_getElem.mp drafted
  exact ⟨taken + index + 1, List.mem_mapIdx.mpr ⟨index, short, rfl⟩⟩

/-- What any two drafts keep to whatever their numbers are, the records keep to. -/
theorem pairwise_numbered {R : α → α → Prop} {drafts : List (String → α)}
    (apart : drafts.Pairwise fun draft later => ∀ m n, R (draft m) (later n)) (stem : String)
    (taken : Nat) : (numbered stem taken drafts).Pairwise R := by
  induction drafts generalizing taken with
  | nil => exact .nil
  | cons draft rest ih =>
    obtain ⟨first, others⟩ := List.pairwise_cons.mp apart
    rw [numbered_cons]
    refine .cons ?_ (ih others _)
    intro record later
    obtain ⟨other, drafted, number, rfl⟩ := exists_draft_of_mem_numbered later
    exact first other drafted _ _

theorem ids_numbered {id : α → String} {drafts : List (String → α)}
    (own : ∀ draft ∈ drafts, ∀ name, id (draft name) = name) (stem : String) (taken : Nat) :
    (numbered stem taken drafts).map id =
      (List.range' (taken + 1) drafts.length).map (numberedId stem) := by
  induction drafts generalizing taken with
  | nil => rfl
  | cons draft rest ih =>
    obtain ⟨first, others⟩ := List.forall_mem_cons.mp own
    rw [numbered_cons, List.map_cons, first, ih others, List.length_cons, List.range'_succ,
      List.map_cons]

theorem ids_numbered_zero {id : α → String} {drafts : List (String → α)}
    (own : ∀ draft ∈ drafts, ∀ name, id (draft name) = name) (stem : String) :
    (numbered stem 0 drafts).map id =
      (List.range' 1 (numbered stem 0 drafts).length).map (numberedId stem) := by
  rw [ids_numbered own, length_numbered]

end Numbering

namespace Tree

theorem plainCallee?_eq (t : SyntaxNode) : t.plainCallee? =
    if t.kind == "call_expression" then (t.child? "function").filter (·.kind == "identifier")
    else none := by
  unfold plainCallee?
  cases t.kind == "call_expression" <;> rfl

theorem plainCallee?_eq_some_iff {t callee : SyntaxNode} : t.plainCallee? = some callee ↔
    t.kind = "call_expression" ∧ t.child? "function" = some callee ∧ callee.kind = "identifier" := by
  simp [plainCallee?_eq, Option.filter_eq_some_iff]

theorem plainCallee?_eq_none {t : SyntaxNode} (other : t.kind ≠ "call_expression") :
    t.plainCallee? = none := by
  simp [plainCallee?_eq, other]

def hookCall? (declarator : SyntaxNode) : Option (SyntaxNode × SyntaxNode) :=
  (declarator.child? "value").bind fun value => value.plainCallee?.map (value, ·)

theorem hookCall?_eq_none {declarator : SyntaxNode}
    (function : (declarator.child? "value").any (·.isFunction)) : declarator.hookCall? = none := by
  obtain ⟨value, given, literal⟩ := (Option.any_eq_true _ _).mp function
  have other : value.kind ≠ "call_expression" := by
    intro call
    simp [isFunction, call] at literal
  simp [hookCall?, given, plainCallee?_eq_none other]

def callKind? (imports : Imports) (t : SyntaxNode) : Option HookKind :=
  t.plainCallee?.map fun callee => HookKind.classify callee.text (imports.get? callee.text)

end Tree

namespace Declarations

/-- The hook that a call makes of a name, as far as it does not depend on other hooks. -/
def hookDraft (imports : Imports) (call callee : SyntaxNode) (b : Binding) (id : String) : Hook :=
  let kind := HookKind.classify callee.text (imports.get? callee.text)
  { id := id
    name := b.name
    kind := kind
    scope := if kind.isGlobal then .global else .component
    definedAt := some call.position
    origin := ⟨imports.get? callee.text, some callee.text, b.pattern, b.index⟩ }

def hooksAt (imports : Imports) (p : Placed) : List (String → Hook) :=
  if p.node.kind == "variable_declarator" then
    match p.node.hookCall? with
    | some (call, callee) =>
      (((p.node.child? "name").map Tree.bindings).getD []).map (hookDraft imports call callee)
    | none => []
  else []

/-- An effect lists which of its dependencies are known to be global when it is met. -/
def effectsAt (imports : Imports) (d : Declarations) (p : Placed) : List (String → Effect) :=
  (((p.node.callKind? imports).bind HookKind.effectKind?).map fun kind id =>
    Effect.ofCall id kind d.globalNames p.node).toList

def callbacksAt (imports : Imports) (p : Placed) : List (String → Callback) :=
  if p.node.callKind? imports == some .memoizedCallback then [fun id => Callback.ofCall id p] else []

def variableDraft (declarator : SyntaxNode) (name id : String) : Variable where
  id := id
  name := name
  dependencies := Tree.initializerNames (declarator.child? "value") (some name)
  definedAt := some declarator.position

def localsAt (p : Placed) : List (String → Variable) :=
  if p.node.kind == "variable_declarator" && !(p.node.child? "value").any (·.isFunction)
      && p.node.hookCall?.isNone then
    p.node.plainName?.toList.map (variableDraft p.node)
  else []

def globalName? (draft : String → Hook) : Option String :=
  if (draft "").kind.isGlobal then some (draft "").name else none

def globalsAt (imports : Imports) (p : Placed) : List String :=
  (hooksAt imports p).filterMap globalName?

def calledAt (p : Placed) : List String :=
  (p.node.plainCallee?.map Tree.text).toList

def gather (imports : Imports) (d : Declarations) (p : Placed) : Declarations where
  hooks := d.hooks ++ numbered "hook" d.hooks.length (hooksAt imports p)
  effects := d.effects ++ numbered "effect" d.effects.length (effectsAt imports d p)
  callbacks := d.callbacks ++ numbered "callback" d.callbacks.length (callbacksAt imports p)
  locals := d.locals ++ numbered "var" d.locals.length (localsAt p)
  globalNames := (globalsAt imports p).foldl addNew d.globalNames
  calledNames := (calledAt p).foldl addNew d.calledNames

section Visit

variable (imports : Imports) (d : Declarations) (p : Placed)

theorem foldl_addHook_eq (call callee : SyntaxNode) (bindings : List Binding) :
    bindings.foldl (addHook callee.text (imports.get? callee.text) call.position) d = { d with
      hooks :=
        d.hooks ++ numbered "hook" d.hooks.length (bindings.map (hookDraft imports call callee))
      globalNames := ((bindings.map (hookDraft imports call callee)).filterMap globalName?).foldl
        addNew d.globalNames } := by
  induction bindings generalizing d with
  | nil => simp
  | cons b rest ih =>
    have added : addHook callee.text (imports.get? callee.text) call.position d b = { d with
        hooks := d.hooks ++ [hookDraft imports call callee b (numberedId "hook" (d.hooks.length + 1))]
        globalNames := (globalName? (hookDraft imports call callee b)).toList.foldl addNew
          d.globalNames } := by
      by_cases global : (HookKind.classify callee.text (imports.get? callee.text)).isGlobal <;>
        simp [addHook, hookDraft, globalName?, global, numberedId] <;> rfl
    rw [List.foldl_cons, ih, added, List.map_cons, numbered_cons, List.filterMap_cons]
    cases globalName? (hookDraft imports call callee b) <;> simp

theorem gather_of_call (other : p.node.kind ≠ "variable_declarator") : gather imports d p = { d with
    effects := d.effects ++ numbered "effect" d.effects.length (effectsAt imports d p)
    callbacks := d.callbacks ++ numbered "callback" d.callbacks.length (callbacksAt imports p)
    calledNames := (calledAt p).foldl addNew d.calledNames } := by
  simp [gather, hooksAt, localsAt, globalsAt, other]

theorem gather_of_declarator (other : p.node.kind ≠ "call_expression") : gather imports d p = { d with
    hooks := d.hooks ++ numbered "hook" d.hooks.length (hooksAt imports p)
    locals := d.locals ++ numbered "var" d.locals.length (localsAt p)
    globalNames := (globalsAt imports p).foldl addNew d.globalNames } := by
  simp [gather, effectsAt, callbacksAt, calledAt, Tree.callKind?, Tree.plainCallee?_eq_none other]

theorem visitDeclarator_eq (declarator : p.node.kind = "variable_declarator") :
    visitDeclarator imports d p.node = gather imports d p := by
  have shape : visitDeclarator imports d p.node =
      if (p.node.child? "value").any (·.isFunction) then d
      else
        match p.node.hookCall? with
        | some (call, callee) => (((p.node.child? "name").map Tree.bindings).getD []).foldl
            (addHook callee.text (imports.get? callee.text) call.position) d
        | none => p.node.plainName?.toList.foldl (addVariable p.node) d := rfl
  rw [shape, gather_of_declarator imports d p (by simp [declarator])]
  cases function : (p.node.child? "value").any (·.isFunction) with
  | true => simp [hooksAt, localsAt, globalsAt, function, Tree.hookCall?_eq_none function]
  | false =>
    cases called : p.node.hookCall? with
    | some found =>
      obtain ⟨call, callee⟩ := found
      simp [hooksAt, localsAt, globalsAt, declarator, called, foldl_addHook_eq]
    | none =>
      cases named : p.node.plainName? with
      | none => simp [hooksAt, localsAt, globalsAt, called, named]
      | some name =>
        simp [hooksAt, localsAt, globalsAt, declarator, function, called, named, addVariable,
          variableDraft, numbered_cons]
        rfl

theorem visitCall_eq (call : p.node.kind = "call_expression") :
    visitCall imports d p = gather imports d p := by
  rw [gather_of_call imports d p (by simp [call])]
  unfold visitCall
  cases called : p.node.plainCallee? with
  | none => simp [effectsAt, callbacksAt, calledAt, Tree.callKind?, called]
  | some callee =>
    simp only [effectsAt, callbacksAt, calledAt, Tree.callKind?, called, Option.map_some,
      Option.toList_some]
    cases HookKind.classify callee.text (imports.get? callee.text) <;>
      simp [HookKind.effectKind?, addEffect, addCallback, numbered_cons] <;> rfl

theorem visit_eq : visit imports d p = gather imports d p := by
  unfold visit
  split
  · rename_i declarator
    exact visitDeclarator_eq imports d p declarator
  · rename_i call
    exact visitCall_eq imports d p call
  · rename_i declares calls
    simp [gather_of_call imports d p declares, effectsAt, callbacksAt, calledAt, Tree.callKind?,
      Tree.plainCallee?_eq_none calls]

end Visit

section Walk

variable {α : Type} (imports : Imports)

/-- The drafts of a walk, each made when what was met before it is known. -/
def draftsFrom (drafts : Declarations → Placed → List (String → α)) (d : Declarations) :
    List Placed → List (String → α)
  | [] => []
  | p :: rest => drafts d p ++ draftsFrom drafts (visit imports d p) rest

theorem draftsFrom_eq_flatMap (drafts : Placed → List (String → α)) (d : Declarations)
    (ps : List Placed) : draftsFrom imports (fun _ => drafts) d ps = ps.flatMap drafts := by
  induction ps generalizing d with
  | nil => rfl
  | cons p rest ih => rw [draftsFrom, ih, List.flatMap_cons]

theorem exists_of_mem_draftsFrom {drafts : Declarations → Placed → List (String → α)}
    {ps : List Placed} {d : Declarations} {draft : String → α}
    (drafted : draft ∈ draftsFrom imports drafts d ps) :
    ∃ p ∈ ps, ∃ before, draft ∈ drafts before p := by
  induction ps generalizing d with
  | nil => cases drafted
  | cons q rest ih =>
    rcases List.mem_append.mp drafted with first | later
    · exact ⟨q, List.mem_cons_self, d, first⟩
    · obtain ⟨p, walked, before, made⟩ := ih later
      exact ⟨p, List.mem_cons_of_mem q walked, before, made⟩

/-- Records that every visit appends are appended by a walk, in its order. -/
theorem records_walked (records : Declarations → List α) {stem : String}
    {drafts : Declarations → Placed → List (String → α)}
    (step : ∀ d p, records (visit imports d p) =
      records d ++ numbered stem (records d).length (drafts d p))
    (ps : List Placed) (d : Declarations) :
    records (ps.foldl (visit imports) d) =
      records d ++ numbered stem (records d).length (draftsFrom imports drafts d ps) := by
  induction ps generalizing d with
  | nil => simp [draftsFrom]
  | cons p rest ih =>
    rw [List.foldl_cons, ih, step, draftsFrom, numbered_append, List.length_append,
      length_numbered, List.append_assoc]

variable (globalNames : List String) (body : Placed)

theorem hooks_collect : (collect imports globalNames body).hooks =
    numbered "hook" 0 (body.walk.flatMap (hooksAt imports)) := by
  rw [← draftsFrom_eq_flatMap imports _ { globalNames := distinct globalNames }]
  exact records_walked imports (·.hooks) (fun d p => by rw [visit_eq]; rfl) _ _

theorem effects_collect : (collect imports globalNames body).effects =
    numbered "effect" 0 (draftsFrom imports (effectsAt imports)
      { globalNames := distinct globalNames } body.walk) :=
  records_walked imports (·.effects) (fun d p => by rw [visit_eq]; rfl) _ _

theorem callbacks_collect : (collect imports globalNames body).callbacks =
    numbered "callback" 0 (body.walk.flatMap (callbacksAt imports)) := by
  rw [← draftsFrom_eq_flatMap imports _ { globalNames := distinct globalNames }]
  exact records_walked imports (·.callbacks) (fun d p => by rw [visit_eq]; rfl) _ _

theorem locals_collect : (collect imports globalNames body).locals =
    numbered "var" 0 (body.walk.flatMap localsAt) := by
  rw [← draftsFrom_eq_flatMap imports _ { globalNames := distinct globalNames }]
  exact records_walked imports (·.locals) (fun d p => by rw [visit_eq]; rfl) _ _

theorem mem_foldl_addNew (name : String) (added names : List String) :
    name ∈ added.foldl addNew names ↔ name ∈ names ∨ name ∈ added := by
  induction added generalizing names with
  | nil => simp
  | cons first rest ih => rw [List.foldl_cons, ih, mem_addNew, List.mem_cons, or_assoc]

theorem mem_names_walked (names : Declarations → List String) {namesAt : Placed → List String}
    (step : ∀ d p, names (visit imports d p) = (namesAt p).foldl addNew (names d)) (name : String)
    (ps : List Placed) (d : Declarations) :
    name ∈ names (ps.foldl (visit imports) d) ↔ name ∈ names d ∨ name ∈ ps.flatMap namesAt := by
  induction ps generalizing d with
  | nil => simp
  | cons p rest ih =>
    rw [List.foldl_cons, ih, step, mem_foldl_addNew, List.flatMap_cons, List.mem_append, or_assoc]

end Walk

section Members

variable {imports : Imports} {globalNames : List String} {body : Placed}

theorem exists_of_mem_hooksAt {p : Placed} {draft : String → Hook}
    (drafted : draft ∈ hooksAt imports p) :
    p.node.kind = "variable_declarator" ∧
      ∃ call callee pattern, p.node.hookCall? = some (call, callee) ∧
        p.node.child? "name" = some pattern ∧ ∃ b ∈ pattern.bindings,
          draft = hookDraft imports call callee b := by
  unfold hooksAt at drafted
  split at drafted
  · rename_i declarator
    cases called : p.node.hookCall? with
    | none => simp [called] at drafted
    | some found =>
      obtain ⟨call, callee⟩ := found
      cases named : p.node.child? "name" with
      | none => simp [called, named] at drafted
      | some pattern =>
        simp only [called, named, Option.map_some, Option.getD_some] at drafted
        obtain ⟨b, bound, rfl⟩ := List.mem_map.mp drafted
        exact ⟨by simpa using declarator, call, callee, pattern, rfl, rfl, b, bound, rfl⟩
  · cases drafted

theorem exists_of_mem_hooks {h : Hook} (made : h ∈ (collect imports globalNames body).hooks) :
    ∃ p ∈ body.walk, p.node.kind = "variable_declarator" ∧
      ∃ call callee pattern, p.node.hookCall? = some (call, callee) ∧
        p.node.child? "name" = some pattern ∧ ∃ b ∈ pattern.bindings, ∃ number,
          h = hookDraft imports call callee b (numberedId "hook" number) := by
  rw [hooks_collect] at made
  obtain ⟨draft, drafted, number, rfl⟩ := exists_draft_of_mem_numbered made
  obtain ⟨p, walked, given⟩ := List.mem_flatMap.mp drafted
  obtain ⟨declarator, call, callee, pattern, called, named, b, bound, rfl⟩ :=
    exists_of_mem_hooksAt given
  exact ⟨p, walked, declarator, call, callee, pattern, called, named, b, bound, number, rfl⟩

theorem exists_mem_hooks (imports : Imports) (globalNames : List String) {p : Placed}
    (walked : p ∈ body.walk) (declarator : p.node.kind = "variable_declarator") {call callee pattern : SyntaxNode}
    (called : p.node.hookCall? = some (call, callee)) (named : p.node.child? "name" = some pattern)
    {b : Binding} (bound : b ∈ pattern.bindings) :
    ∃ number, hookDraft imports call callee b (numberedId "hook" number) ∈
      (collect imports globalNames body).hooks := by
  have drafted : hookDraft imports call callee b ∈ body.walk.flatMap (hooksAt imports) := by
    refine List.mem_flatMap.mpr ⟨p, walked, ?_⟩
    simp only [hooksAt, declarator, called, named, Option.map_some, Option.getD_some]
    exact List.mem_map_of_mem bound
  rw [hooks_collect]
  exact exists_mem_numbered drafted "hook" 0

theorem exists_of_mem_effects {e : Effect}
    (made : e ∈ (collect imports globalNames body).effects) :
    ∃ p ∈ body.walk, ∃ kind, (p.node.callKind? imports).bind HookKind.effectKind? = some kind ∧
      ∃ number known, e = Effect.ofCall (numberedId "effect" number) kind known p.node := by
  rw [effects_collect] at made
  obtain ⟨draft, drafted, number, rfl⟩ := exists_draft_of_mem_numbered made
  obtain ⟨p, walked, before, given⟩ := exists_of_mem_draftsFrom imports drafted
  obtain ⟨kind, asked, rfl⟩ := Option.map_eq_some_iff.mp (Option.mem_toList.mp given)
  exact ⟨p, walked, kind, asked, number, before.globalNames, rfl⟩

theorem exists_of_mem_callbacks {c : Callback}
    (made : c ∈ (collect imports globalNames body).callbacks) :
    ∃ p ∈ body.walk, p.node.callKind? imports = some .memoizedCallback ∧
      ∃ number, c = Callback.ofCall (numberedId "callback" number) p := by
  rw [callbacks_collect] at made
  obtain ⟨draft, drafted, number, rfl⟩ := exists_draft_of_mem_numbered made
  obtain ⟨p, walked, given⟩ := List.mem_flatMap.mp drafted
  unfold callbacksAt at given
  split at given
  · rename_i kind
    rw [List.mem_singleton.mp given]
    exact ⟨p, walked, by simpa using kind, number, rfl⟩
  · cases given

end Members

section Ids

variable (imports : Imports) (globalNames : List String) (body : Placed)

theorem ids_hooks : (collect imports globalNames body).hooks.map (·.id) =
    (List.range' 1 (collect imports globalNames body).hooks.length).map (numberedId "hook") := by
  rw [hooks_collect]
  refine ids_numbered_zero (fun draft drafted name => ?_) "hook"
  obtain ⟨p, -, given⟩ := List.mem_flatMap.mp drafted
  obtain ⟨-, call, callee, pattern, -, -, b, -, rfl⟩ := exists_of_mem_hooksAt given
  rfl

theorem ids_effects : (collect imports globalNames body).effects.map (·.id) =
    (List.range' 1 (collect imports globalNames body).effects.length).map
      (numberedId "effect") := by
  rw [effects_collect]
  refine ids_numbered_zero (fun draft drafted name => ?_) "effect"
  obtain ⟨p, -, before, given⟩ := exists_of_mem_draftsFrom imports drafted
  obtain ⟨kind, -, rfl⟩ := Option.map_eq_some_iff.mp (Option.mem_toList.mp given)
  rfl

theorem ids_callbacks : (collect imports globalNames body).callbacks.map (·.id) =
    (List.range' 1 (collect imports globalNames body).callbacks.length).map
      (numberedId "callback") := by
  rw [callbacks_collect]
  refine ids_numbered_zero (fun draft drafted name => ?_) "callback"
  obtain ⟨p, -, given⟩ := List.mem_flatMap.mp drafted
  unfold callbacksAt at given
  split at given
  · rw [List.mem_singleton.mp given]
    rfl
  · cases given

theorem ids_locals : (collect imports globalNames body).locals.map (·.id) =
    (List.range' 1 (collect imports globalNames body).locals.length).map (numberedId "var") := by
  rw [locals_collect]
  refine ids_numbered_zero (fun draft drafted name => ?_) "var"
  obtain ⟨p, -, given⟩ := List.mem_flatMap.mp drafted
  unfold localsAt at given
  split at given
  · obtain ⟨own, -, rfl⟩ := List.mem_map.mp given
    rfl
  · cases given

end Ids

end Declarations

end RenderFlow
