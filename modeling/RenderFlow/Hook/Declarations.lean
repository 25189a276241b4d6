import RenderFlow.Hook.Binding
import RenderFlow.Hook.Body
import RenderFlow.Hook.Classify
import RenderFlow.Source.Imports

/-!
One walk over a component's body that collects its hooks, effects, callbacks and plain variables.
A declarator comes before its own initializer, so a name that a store hook binds is global by the
time a later effect lists it.
-/
namespace RenderFlow

namespace Tree

def callArguments (t : SyntaxNode) : List SyntaxNode :=
  match t.child? "arguments" with
  | some list => if list.kind == "arguments" then list.visibleChildren else []
  | none => []

def dependencyNames (t : SyntaxNode) : List SyntaxNode :=
  if t.kind == "array" then identifiers t.visibleChildren else []

def listedNames (call : SyntaxNode) : List SyntaxNode :=
  (call.callArguments[1]?.map dependencyNames).getD []

def listedDependencies (call : SyntaxNode) : List String :=
  call.listedNames.map text

def isNameRead (t : SyntaxNode) : Bool :=
  ["identifier", "shorthand_property_identifier"].contains t.kind

def initializerReads (value : Option SyntaxNode) : List SyntaxNode :=
  ((value.map walk).getD []).filter isNameRead

def initializerNames (value : Option SyntaxNode) (own : Option String) : List String :=
  distinct (((initializerReads value).map text).filter (own != some ·))

def plainTarget? (declarator : SyntaxNode) : Option SyntaxNode :=
  (declarator.child? "name").filter (·.kind == "identifier")

def plainName? (declarator : SyntaxNode) : Option String :=
  declarator.plainTarget?.map text

end Tree

namespace Effect

def ofCall (id : String) (kind : EffectKind) (globalNames : List String) (call : SyntaxNode) :
    Effect :=
  let scan := BodyScan.ofFunction true call.callArguments[0]?
  { id := id
    kind := kind
    dependencies := call.listedDependencies.map fun name => ⟨name, globalNames.contains name⟩
    setters := scan.setters
    refReads := scan.refReads
    refWrites := scan.refWrites
    externalCalls := scan.externalCalls
    definedAt := some call.position }

def reads (call : SyntaxNode) : List SyntaxNode :=
  BodyScan.reads true call.callArguments[0]? ++ call.listedNames

end Effect

namespace Placed

def boundTarget? (p : Placed) : Option SyntaxNode := do
  let parent ← p.parent
  guard (parent.kind == "variable_declarator" && p.node.label.field == some "value")
  parent.plainTarget?

def boundName? (p : Placed) : Option String :=
  p.boundTarget?.map Tree.text

end Placed

namespace Callback

/-- Refs that a callback touches are not recorded. -/
def ofCall (id : String) (call : Placed) : Callback :=
  let scan := BodyScan.ofFunction false call.node.callArguments[0]?
  { id := id
    name := call.boundName?
    dependencies := distinct call.node.listedDependencies
    setters := scan.setters
    externalCalls := scan.externalCalls
    definedAt := some call.node.position }

def reads (call : Placed) : List SyntaxNode :=
  BodyScan.reads false call.node.callArguments[0]? ++ call.boundTarget?.toList
    ++ call.node.listedNames

end Callback

structure Declarations where
  hooks : List Hook := []
  effects : List Effect := []
  callbacks : List Callback := []
  locals : List Variable := []
  globalNames : List String := []
  calledNames : List String := []

namespace Declarations

def addHook (callee : String) (source : Option String) (position : Position) (d : Declarations)
    (b : Binding) : Declarations :=
  let kind := HookKind.classify callee source
  { d with
    hooks := d.hooks ++ [{
      id := s!"hook-{d.hooks.length + 1}"
      name := b.name
      kind := kind
      scope := if kind.isGlobal then .global else .component
      definedAt := some position
      origin := ⟨source, some callee, b.pattern, b.index⟩ }]
    globalNames := if kind.isGlobal then addNew d.globalNames b.name else d.globalNames }

def addVariable (declarator : SyntaxNode) (d : Declarations) (name : String) : Declarations :=
  { d with
    locals := d.locals ++ [{
      id := s!"var-{d.locals.length + 1}"
      name := name
      dependencies := Tree.initializerNames (declarator.child? "value") (some name)
      definedAt := some declarator.position }] }

/-- A function is neither a hook nor a value; the call of a plain name is a hook; anything else
makes a variable of a plain name. -/
def visitDeclarator (imports : Imports) (d : Declarations) (declarator : SyntaxNode) :
    Declarations :=
  let value := declarator.child? "value"
  if value.any (·.isFunction) then d
  else
    match value.bind fun v => v.plainCallee?.map (v, ·) with
    | some (call, callee) =>
      let pattern := declarator.child? "name"
      ((pattern.map Tree.bindings).getD []).foldl
        (addHook callee.text (imports.get? callee.text) call.position) d
    | none => declarator.plainName?.toList.foldl (addVariable declarator) d

def addEffect (kind : EffectKind) (call : SyntaxNode) (d : Declarations) : Declarations :=
  let id := s!"effect-{d.effects.length + 1}"
  { d with effects := d.effects ++ [Effect.ofCall id kind d.globalNames call] }

def addCallback (call : Placed) (d : Declarations) : Declarations :=
  { d with
    callbacks := d.callbacks ++ [Callback.ofCall s!"callback-{d.callbacks.length + 1}" call] }

def visitCall (imports : Imports) (d : Declarations) (call : Placed) : Declarations :=
  match call.node.plainCallee? with
  | none => d
  | some callee =>
    let d := { d with calledNames := addNew d.calledNames callee.text }
    match HookKind.classify callee.text (imports.get? callee.text) with
    | .effect => d.addEffect .effect call.node
    | .layoutEffect => d.addEffect .layoutEffect call.node
    | .memoizedCallback => d.addCallback call
    | _ => d

def visit (imports : Imports) (d : Declarations) (p : Placed) : Declarations :=
  match p.node.kind with
  | "variable_declarator" => d.visitDeclarator imports p.node
  | "call_expression" => d.visitCall imports p
  | _ => d

/-- `globalNames` are the names known to be global beforehand. -/
def collect (imports : Imports) (globalNames : List String) (body : Placed) : Declarations :=
  body.walk.foldl (visit imports) { globalNames := distinct globalNames }

def declaratorReads (declarator : SyntaxNode) : List SyntaxNode :=
  let value := declarator.child? "value"
  if value.any (·.isFunction) then []
  else
    match value.bind Tree.plainCallee? with
    | some callee => callee :: ((declarator.child? "name").map Tree.bindingReads).getD []
    | none =>
      match declarator.plainTarget? with
      | some target => target :: Tree.initializerReads value
      | none => []

def callReads (imports : Imports) (call : Placed) : List SyntaxNode :=
  match call.node.plainCallee? with
  | none => []
  | some callee =>
    callee ::
      match HookKind.classify callee.text (imports.get? callee.text) with
      | .effect | .layoutEffect => Effect.reads call.node
      | .memoizedCallback => Callback.reads call
      | _ => []

def readsAt (imports : Imports) (p : Placed) : List SyntaxNode :=
  match p.node.kind with
  | "variable_declarator" => declaratorReads p.node
  | "call_expression" => callReads imports p
  | _ => []

def reads (imports : Imports) (body : Placed) : List SyntaxNode :=
  body.walk.flatMap (readsAt imports)

end Declarations

end RenderFlow
