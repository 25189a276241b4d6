import RenderFlow.Facts.Basic
import RenderFlow.Syntax.Tree
import RenderFlow.Text.FileName

/-!
What a file exports, and which of its exports is the component to analyze.
-/
namespace RenderFlow

namespace Tree

def functionDeclarator? (t : SyntaxNode) : Option SyntaxNode := do
  guard (t.kind == "variable_declarator")
  let name ← t.child? "name"
  let value ← t.child? "value"
  guard (name.kind == "identifier" && value.isFunction)
  return name

def declaredFunctions (t : SyntaxNode) : List SyntaxNode :=
  if t.kind == "function_declaration" then
    (t.child? "name").toList
  else if ["lexical_declaration", "variable_declaration"].contains t.kind then
    t.visibleChildren.filterMap functionDeclarator?
  else
    []

def exportStatements (t : SyntaxNode) : List SyntaxNode :=
  t.visibleChildren.filter (·.kind == "export_statement")

def isDefaultExport (t : SyntaxNode) : Bool :=
  t.children.any (·.kind == "default")

def functionName? (t : SyntaxNode) : Option SyntaxNode :=
  if t.isFunction then t.child? "name" else none

/-- The name that a default export gives away: of an identifier, of a named function literal, or
of a function declaration. -/
def defaultName? (t : SyntaxNode) : Option SyntaxNode :=
  let value := t.child? "value"
  let declared := (t.child? "declaration").filter (·.kind == "function_declaration")
  (value.filter (·.kind == "identifier")).or <|
    (value.bind functionName?).or <|
      declared.bind (·.declaredFunctions.head?)

def exportedName? (t : SyntaxNode) : Option SyntaxNode := do
  guard (t.kind == "export_specifier")
  let name ← (t.child? "alias").or (t.child? "name")
  guard (name.kind == "identifier")
  return name

def namedExports (t : SyntaxNode) : List SyntaxNode :=
  ((t.child? "declaration").toList.flatMap declaredFunctions) ++
    (t.visibleChildren.filter (·.kind == "export_clause")).flatMap
      (·.visibleChildren.filterMap exportedName?)

def defaultNames (root : SyntaxNode) : List SyntaxNode :=
  (root.exportStatements.filter isDefaultExport).filterMap defaultName?

def componentNames (root : SyntaxNode) : List SyntaxNode :=
  (root.exportStatements.filter (!isDefaultExport ·)).flatMap namedExports

/-- The last default export that has a name counts. -/
def exports (root : SyntaxNode) : Exports where
  default := root.defaultNames.getLast?.map text
  components := root.componentNames.map text

def exportReads (root : SyntaxNode) : List SyntaxNode :=
  root.defaultNames ++ root.componentNames

end Tree

namespace Exports

def hint? (fileName : Option String) : Option String :=
  (fileName.filter (· != "")).map fun f => FileName.stem (FileName.base f)

/-- The default export, or the only component, or the one that the file is named after, or the
first. -/
def primary? (e : Exports) (fileName : Option String) : Option String :=
  match e.default.filter (· != "") with
  | some name => some name
  | none =>
    match e.components with
    | [] => none
    | [only] => some only
    | first :: _ => ((hint? fileName).filter e.components.contains).or (some first)

def asksFile (e : Exports) : Bool :=
  (e.default.filter (· != "")).isNone && e.components.length != 1

theorem primary?_eq {e : Exports} (settled : e.asksFile = false) (fileName other : Option String) :
    e.primary? fileName = e.primary? other := by
  unfold asksFile at settled
  unfold primary?
  cases found : e.default.filter (· != "") with
  | some name => rfl
  | none =>
    rw [found] at settled
    match held : e.components with
    | [] => rfl
    | [only] => rfl
    | first :: second :: rest => simp [held] at settled

end Exports

end RenderFlow
