import RenderFlow.Syntax.Tree
import RenderFlow.Text.FileName
import RenderFlow.Text.Search

/-!
Which grammar a file is read with. Markup is allowed unless the extension says otherwise.
-/
namespace RenderFlow

inductive Grammar where
  | typescript
  | tsx
deriving DecidableEq, Repr

def Grammar.name : Grammar → String
  | .typescript => "typescript"
  | .tsx => "tsx"

def Grammar.ofFileName : Option String → Grammar
  | none => .tsx
  | some fileName =>
    if [".ts", ".mts", ".cts"].contains (Text.lower (FileName.extension fileName)) then
      .typescript
    else
      .tsx

/-- The parser is a parameter of the analysis: a function from cleaned text to its tree. -/
abbrev SyntaxParser := Grammar → String → Tree Span

end RenderFlow
