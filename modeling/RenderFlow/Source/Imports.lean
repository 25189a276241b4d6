import RenderFlow.Syntax.Tree
import RenderFlow.Table

/-!
The names that a file imports, each with the module it comes from.
-/
namespace RenderFlow

abbrev Imports := Table String

namespace Tree

def identifiers (ts : List SyntaxNode) : List SyntaxNode :=
  ts.filter (·.kind == "identifier")

def importedName? (t : SyntaxNode) : Option SyntaxNode := do
  guard (t.kind == "import_specifier")
  (t.child? "alias").or (t.child? "name")

def importedNames (t : SyntaxNode) : List SyntaxNode :=
  match t.kind with
  | "identifier" => [t]
  | "namespace_import" => identifiers t.visibleChildren
  | "named_imports" => t.visibleChildren.filterMap importedName?
  | _ => []

def importStatements (root : SyntaxNode) : List SyntaxNode :=
  root.visibleChildren.filter (·.kind == "import_statement")

def importParts? (t : SyntaxNode) : Option (SyntaxNode × List SyntaxNode) :=
  (t.child? "source").map fun source =>
    let clauses := t.visibleChildren.filter (·.kind == "import_clause")
    (source, clauses.flatMap (·.visibleChildren.flatMap importedNames))

def importBindings (t : SyntaxNode) : List (String × String) :=
  match t.importParts? with
  | some (source, names) => names.map fun name => (name.text, source.stringValue)
  | none => []

/-- A name imported again keeps its place and takes the later module. -/
def imports (root : SyntaxNode) : Imports :=
  Table.setAll {} (root.importStatements.flatMap importBindings)

def importReads (root : SyntaxNode) : List SyntaxNode :=
  (root.importStatements.filterMap importParts?).flatMap fun (source, names) => source :: names

end Tree

end RenderFlow
