import RenderFlow.Hook.Declarations
import RenderFlow.Proofs.Comments.Markup

/-!
Hooks, effects, callbacks and variables of a bare tree. Places in an array pattern count commas, and
a comment between them is none.
-/
namespace RenderFlow

def Binding.bare (b : Binding) : Binding :=
  { b with node := b.node.bare }

@[simp] theorem Binding.name_bare (b : Binding) : b.bare.name = b.name :=
  b.node.text_bare

namespace Tree

section Patterns

variable (t : SyntaxNode)

/-- The index counts the commas passed, which a comment among the items leaves as it is. -/
theorem arrayBindings_bareAll (index : Nat) (ts : List SyntaxNode) :
    arrayBindings index (bareAll ts) = (arrayBindings index ts).map Binding.bare := by
  induction ts generalizing index with
  | nil => rfl
  | cons t rest ih =>
    rw [bareAll, arrayBindings]
    -- Bare items leave strays out, so a stray of the pattern has to count for nothing there.
    cases stray : t.label.isStray with
    | true =>
      have comment : t.kind = "comment" := (Label.isStray_iff.mp stray).1
      simp [comment, ih]
    | false =>
      rw [cond_false, arrayBindings, kind_bare, ih, ih]
      split
      · rfl
      · split <;> rfl

@[simp] theorem propertyTarget?_bare : t.bare.propertyTarget? = t.propertyTarget?.map bare := by
  have target (c : SyntaxNode) :
      ["shorthand_property_identifier_pattern", "identifier"].contains c.bare.kind =
        ["shorthand_property_identifier_pattern", "identifier"].contains c.kind := by
    rw [kind_bare]
  unfold propertyTarget?
  rw [kind_bare, child?_bare, child?_bare]
  split
  · rfl
  · exact filter?_bare target _
  · exact filter?_kind_bare _ _
  · rfl

@[simp] theorem bindings_bare : t.bare.bindings = t.bindings.map Binding.bare := by
  unfold bindings
  rw [kind_bare, visibleChildren_bare]
  split
  · rfl
  · obtain ⟨l, cs⟩ := t
    exact arrayBindings_bareAll 0 cs
  · rw [filterMap_bare propertyTarget?_bare, List.map_map, List.map_map]
    rfl
  · rfl

@[simp] theorem bindingReads_bare : t.bare.bindingReads = t.bindingReads.map bare := by
  rw [bindingReads, bindings_bare, bindingReads, List.map_map, List.map_map]
  rfl

end Patterns

section Calls

variable (t : SyntaxNode)

@[simp] theorem plainCallee?_bare : t.bare.plainCallee? = t.plainCallee?.map bare := by
  simp only [plainCallee?, kind_bare, child?_bare, filter?_kind_bare]
  cases t.kind == "call_expression" <;> rfl

@[simp] theorem spelledCallee?_bare :
    t.bare.spelledCallee? = t.spelledCallee?.map (·.map bare) := by
  simp only [spelledCallee?, kind_bare, child?_bare, Option.bind_eq_bind]
  cases t.kind == "call_expression" with
  | false => rfl
  | true =>
    cases t.child? "function" with
    | none => rfl
    | some callee =>
      simp only [Option.map_some, Option.bind_some, kind_bare, child?_bare]
      split
      · rfl
      · cases callee.child? "object" with
        | none => rfl
        | some object =>
          cases callee.child? "property" with
          | none => rfl
          | some method =>
            simp only [Option.map_some, Option.bind_some, kind_bare]
            cases object.kind == "identifier" <;> rfl
      · rfl

@[simp] theorem callee?_bare : t.bare.callee? = t.callee? := by
  rw [callee?, spelledCallee?_bare, callee?]
  cases t.spelledCallee? with
  | none => rfl
  | some callee => cases callee <;> simp [Callee.map]

@[simp] theorem accessedObject?_bare : t.bare.accessedObject? = t.accessedObject?.map bare := by
  simp only [accessedObject?, kind_bare, child?_bare, filter?_kind_bare]
  cases t.kind == "member_expression" <;> rfl

@[simp] theorem accessedRef?_bare : t.bare.accessedRef? = t.accessedRef? := by
  simp [accessedRef?, Function.comp_def]

@[simp] theorem isAssignment_bare : t.bare.isAssignment = t.isAssignment := by
  simp [isAssignment]

@[simp] theorem callArguments_bare : t.bare.callArguments = t.callArguments.map bare := by
  rw [callArguments, child?_bare, callArguments]
  cases t.child? "arguments" with
  | none => rfl
  | some list =>
    simp only [Option.map_some, kind_bare, visibleChildren_bare]
    split <;> rfl

@[simp] theorem dependencyNames_bare : t.bare.dependencyNames = t.dependencyNames.map bare := by
  rw [dependencyNames, kind_bare, visibleChildren_bare, identifiers, filter_kind_bare,
    dependencyNames]
  split <;> rfl

@[simp] theorem listedNames_bare : t.bare.listedNames = t.listedNames.map bare := by
  rw [listedNames, callArguments_bare, List.getElem?_map, listedNames]
  cases t.callArguments[1]? with
  | none => rfl
  | some list => simp

@[simp] theorem listedDependencies_bare : t.bare.listedDependencies = t.listedDependencies := by
  rw [listedDependencies, listedNames_bare, map_text_bare, listedDependencies]

@[simp] theorem initializerReads_bare (value : Option SyntaxNode) :
    initializerReads (value.map bare) = (initializerReads value).map bare := by
  cases value with
  | none => rfl
  | some t =>
    have same (c : SyntaxNode) : c.bare.isNameRead = c.isNameRead := by
      rw [isNameRead, kind_bare, isNameRead]
    simp [initializerReads, filter_bare same]

@[simp] theorem initializerNames_bare (value : Option SyntaxNode) (own : Option String) :
    initializerNames (value.map bare) own = initializerNames value own := by
  rw [initializerNames, initializerReads_bare, map_text_bare, initializerNames]

@[simp] theorem plainTarget?_bare : t.bare.plainTarget? = t.plainTarget?.map bare := by
  rw [plainTarget?, child?_bare, filter?_kind_bare, plainTarget?]

@[simp] theorem plainName?_bare : t.bare.plainName? = t.plainName? := by
  simp [plainName?, Function.comp_def]

end Calls

end Tree

namespace Placed

variable (p : Placed)

@[simp] theorem isAssigned_bare : p.bare.isAssigned = p.isAssigned := by
  rw [isAssigned, node_bare, parent_bare, Tree.label_bare, isAssigned]
  cases p.parent with
  | none => rfl
  | some parent => simp [Label.unnumbered]

@[simp] theorem refWrite?_bare : p.bare.refWrite? = p.refWrite? := by
  simp [refWrite?]

@[simp] theorem refRead?_bare : p.bare.refRead? = p.refRead? := by
  simp [refRead?]

@[simp] theorem bodyWalk_bare (function : SyntaxNode) :
    bodyWalk function.bare = (bodyWalk function).map bare := by
  rw [bodyWalk, Tree.child?_bare, bodyWalk]
  cases function.child? "body" with
  | none => rfl
  | some body => exact walk_bare ⟨body, some function⟩

@[simp] theorem scannedNodes_bare (function : Option SyntaxNode) :
    scannedNodes (function.map Tree.bare) = (scannedNodes function).map bare := by
  cases function with
  | none => rfl
  | some t =>
    rw [Option.map_some, scannedNodes, Tree.isFunction_bare, bodyWalk_bare, scannedNodes]
    split <;> rfl

/-- The field a node stands in is part of its label, and a bare label keeps it. -/
@[simp] theorem boundTarget?_bare : p.bare.boundTarget? = p.boundTarget?.map Tree.bare := by
  have field : p.node.bare.label.field = p.node.label.field := by rw [Tree.label_bare]; rfl
  simp only [boundTarget?, node_bare, parent_bare, field, Option.bind_eq_bind]
  cases p.parent with
  | none => rfl
  | some parent =>
    simp only [Option.map_some, Option.bind_some, Tree.kind_bare, Tree.plainTarget?_bare]
    cases parent.kind == "variable_declarator" && p.node.label.field == some "value" <;> rfl

@[simp] theorem boundName?_bare : p.bare.boundName? = p.boundName? := by
  simp [boundName?, Function.comp_def]

end Placed

namespace BodyScan

/-- Reads, writes and calls are told from the nodes scanned, one node at a time. -/
@[simp] theorem ofFunction_bare (trackRefs : Bool) (function : Option SyntaxNode) :
    ofFunction trackRefs (function.map Tree.bare) = ofFunction trackRefs function := by
  have told (f : Placed → Option String) (same : ∀ p : Placed, f p.bare = f p) (ps : List Placed) :
      (ps.map Placed.bare).filterMap f = ps.filterMap f := by
    rw [List.filterMap_map]
    exact congrArg (List.filterMap · ps) (funext same)
  have called (f : Callee String → Option String) (ps : List Placed) :
      (ps.map Placed.bare).filterMap (fun p => p.node.callee?.bind f) =
        ps.filterMap fun p => p.node.callee?.bind f :=
    told _ (fun p => by rw [Placed.node_bare, Tree.callee?_bare]) ps
  rw [ofFunction, Placed.scannedNodes_bare, ofWalk, called, called,
    told _ Placed.refRead?_bare, told _ Placed.refWrite?_bare]
  rfl

theorem readsAt_bare (trackRefs : Bool) (t : SyntaxNode) :
    readsAt trackRefs t.bare = (readsAt trackRefs t).map Tree.bare := by
  have names : ((t.spelledCallee?.map (·.map Tree.bare)).map Callee.names).getD [] =
      ((t.spelledCallee?.map Callee.names).getD []).map Tree.bare := by
    cases t.spelledCallee? with
    | none => rfl
    | some callee => cases callee <;> rfl
  rw [readsAt, Tree.spelledCallee?_bare, names, Tree.accessedObject?_bare, Option.toList_map,
    readsAt, List.map_append]
  split <;> rfl

@[simp] theorem reads_bare (trackRefs : Bool) (function : Option SyntaxNode) :
    reads trackRefs (function.map Tree.bare) = (reads trackRefs function).map Tree.bare := by
  simp [reads, List.flatMap_map, List.map_flatMap, readsAt_bare]

end BodyScan

section Records

variable (t : SyntaxNode) (p : Placed)

@[simp] theorem Effect.ofCall_bare (id : String) (kind : EffectKind) (globalNames : List String) :
    ofCall id kind globalNames t.bare = ofCall id kind globalNames t := by
  simp [ofCall]

@[simp] theorem Effect.reads_bare : reads t.bare = (reads t).map Tree.bare := by
  simp [reads]

@[simp] theorem Callback.ofCall_bare (id : String) : ofCall id p.bare = ofCall id p := by
  simp [ofCall]

@[simp] theorem Callback.reads_bare : reads p.bare = (reads p).map Tree.bare := by
  simp [reads, Option.toList_map]

end Records

namespace Declarations

variable (imports : Imports) (d : Declarations) (p : Placed)

theorem addHook_bare (callee : String) (source : Option String) (position : Position)
    (b : Binding) :
    addHook callee source position d b.bare = addHook callee source position d b := by
  simp only [addHook, Binding.name_bare]
  rfl

theorem addVariable_bare (declarator : SyntaxNode) (name : String) :
    addVariable declarator.bare d name = addVariable declarator d name := by
  simp [addVariable]

/-- A declarator without comments adds what the declarator itself adds: hooks have the same places in
the pattern, and a variable reads the same names. -/
@[simp] theorem visitDeclarator_bare (declarator : SyntaxNode) :
    visitDeclarator imports d declarator.bare = visitDeclarator imports d declarator := by
  have called (v : SyntaxNode) : v.bare.plainCallee?.map (v.bare, ·) =
      (v.plainCallee?.map (v, ·)).map (Prod.map Tree.bare Tree.bare) := by
    rw [Tree.plainCallee?_bare, Option.map_map, Option.map_map]
    rfl
  simp only [visitDeclarator, Tree.child?_bare, Tree.plainName?_bare, Option.any_map,
    Tree.isFunction_bare]
  -- The value is found together with its callee, and both become bare.
  rw [@Tree.bind_bare _ (fun v => v.plainCallee?.map (v, ·)) _ called]
  cases (declarator.child? "value").any (·.isFunction) with
  | true => rfl
  | false =>
    cases (declarator.child? "value").bind fun v => v.plainCallee?.map (v, ·) with
    | some found =>
      cases declarator.child? "name" with
      | none => rfl
      | some pattern => simp [List.foldl_map, addHook_bare]
    | none => simp [addVariable_bare]

@[simp] theorem visitCall_bare : visitCall imports d p.bare = visitCall imports d p := by
  unfold visitCall
  rw [Placed.node_bare, Tree.plainCallee?_bare]
  cases p.node.plainCallee? with
  | none => rfl
  | some callee => simp [addEffect, addCallback]

@[simp] theorem visit_bare : visit imports d p.bare = visit imports d p := by
  unfold visit
  rw [Placed.node_bare, Tree.kind_bare, visitDeclarator_bare, visitCall_bare]

@[simp] theorem collect_bare (globalNames : List String) (body : Placed) :
    collect imports globalNames body.bare = collect imports globalNames body := by
  simp [collect, List.foldl_map]

theorem declaratorReads_bare (declarator : SyntaxNode) :
    declaratorReads declarator.bare = (declaratorReads declarator).map Tree.bare := by
  simp only [declaratorReads, Tree.child?_bare, Tree.plainTarget?_bare, Option.any_map,
    Tree.isFunction_bare, Tree.bind_bare Tree.plainCallee?_bare]
  cases (declarator.child? "value").any (·.isFunction) with
  | true => rfl
  | false =>
    cases (declarator.child? "value").bind Tree.plainCallee? with
    | some callee => cases declarator.child? "name" <;> simp
    | none => cases declarator.plainTarget? <;> simp

theorem callReads_bare : callReads imports p.bare = (callReads imports p).map Tree.bare := by
  unfold callReads
  rw [Placed.node_bare, Tree.plainCallee?_bare]
  cases p.node.plainCallee? with
  | none => rfl
  | some callee =>
    simp only [Option.map_some, Tree.text_bare, Effect.reads_bare, Callback.reads_bare,
      List.map_cons]
    cases HookKind.classify callee.text (imports.get? callee.text) <;> rfl

theorem readsAt_bare : readsAt imports p.bare = (readsAt imports p).map Tree.bare := by
  unfold readsAt
  rw [Placed.node_bare, Tree.kind_bare, declaratorReads_bare, callReads_bare]
  split <;> rfl

@[simp] theorem reads_bare (body : Placed) :
    reads imports body.bare = (reads imports body).map Tree.bare := by
  simp [reads, List.flatMap_map, List.map_flatMap, readsAt_bare]

end Declarations

end RenderFlow
