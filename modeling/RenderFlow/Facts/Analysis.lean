import RenderFlow.Hook.Declarations
import RenderFlow.Markup.Elements
import RenderFlow.Source.Exports
import RenderFlow.Syntax.Damage
import RenderFlow.Syntax.Grammar
import RenderFlow.Syntax.Legible

/-!
From a source and its syntax tree to the facts about its component. A source with a syntax error
gives that one error and nothing else. There are no facts when a text that they rest on cannot be
read.
-/
namespace RenderFlow

namespace Tree

def declaredName? (t : SyntaxNode) : Option SyntaxNode :=
  if t.kind == "function_declaration" || t.isFunction then t.child? "name"
  else if t.kind == "variable_declarator" then t.plainTarget?
  else none

def functionOf? (t : SyntaxNode) : Option SyntaxNode :=
  if t.kind == "variable_declarator" then (t.child? "value").filter isFunction else some t

def declaredFunction? (name : String) (t : SyntaxNode) : Option SyntaxNode :=
  if t.declaredName?.map text == some name then t.functionOf? else none

def findComponent? (root : SyntaxNode) (name : String) : Option SyntaxNode :=
  root.walk.findSome? (declaredFunction? name)

/-- The nodes that the search for a name reads: the names up to the one that is found. -/
def searchReads (name : String) : List SyntaxNode → List SyntaxNode
  | [] => []
  | t :: rest =>
    t.declaredName?.toList ++
      if (t.declaredFunction? name).isSome then [] else searchReads name rest

def parameterPattern? (t : SyntaxNode) : Option SyntaxNode :=
  if ["required_parameter", "optional_parameter"].contains t.kind then t.child? "pattern" else some t

/-- What a component's first parameter destructures; a parameter of another form gives none. -/
def propBindings (component : SyntaxNode) : List Binding :=
  let first := (component.child? "parameters").bind (·.visibleChildren.head?)
  match (first.bind parameterPattern?).filter (·.kind == "object_pattern") with
  | some pattern => pattern.bindings
  | none => []

def componentProps (component : SyntaxNode) : List String :=
  component.propBindings.map (·.name)

def propReads (component : SyntaxNode) : List SyntaxNode :=
  component.propBindings.map (·.node)

def primaryName? (root : SyntaxNode) (fileName : Option String) : Option String :=
  (root.exports.primary? fileName).filter (· != "")

def componentBody? (root : SyntaxNode) (name : String) : Option (SyntaxNode × SyntaxNode) :=
  (root.findComponent? name).bind fun c => (c.child? "body").map (c, ·)

end Tree

namespace Facts

def addComponent (facts : Facts) (imports : Imports) (component body : SyntaxNode) : Facts :=
  let found := Declarations.collect imports [] ⟨body, some component⟩
  { facts with
    props := component.componentProps
    hooks := found.hooks
    effects := found.effects
    callbacks := found.callbacks
    locals := found.locals
    elements := body.elements
    calledNames := found.calledNames }

def ofTree (source : String) (fileName : Option String) (root : SyntaxNode) : Facts :=
  let exports := root.exports
  let facts : Facts := {
    source := source
    fileName := fileName
    componentName := exports.primary? fileName
    exports := exports }
  match (root.primaryName? fileName).bind root.componentBody? with
  | some (component, body) => facts.addComponent root.imports component body
  | none => facts

def componentReads (imports : Imports) (component body : SyntaxNode) : List SyntaxNode :=
  component.propReads ++ body.elementReads ++ Declarations.reads imports ⟨body, some component⟩

def reads (fileName : Option String) (root : SyntaxNode) : List SyntaxNode :=
  let searched :=
    match root.primaryName? fileName with
    | some name => Tree.searchReads name root.walk
    | none => []
  let read :=
    match (root.primaryName? fileName).bind root.componentBody? with
    | some (component, body) => componentReads root.imports component body
    | none => []
  root.importReads ++ root.exportReads ++ searched ++ read

end Facts

def analyze (parser : SyntaxParser) (source : RawText) (fileName : Option RawText) :
    Except TextError Facts :=
  let text := source.clean
  let name := fileName.map RawText.clean
  let root := (parser (Grammar.ofFileName name) text).resolve source.encode
  match root.checked with
  | .ok root => afterReading (Facts.reads name root) (Facts.ofTree text name root)
  | .error e =>
    .ok { source := text, fileName := name, errors := ["Failed to parse source: " ++ e.message] }

end RenderFlow
