import RenderFlow.Facts.Basic
import RenderFlow.Table
import RenderFlow.Text.Search

/-!
The facts about a component in words.
-/
namespace RenderFlow

structure Summaries where
  overview : String
  perKind : Table String
  perEffect : Table String

def commaList (names : List String) : String :=
  ", ".intercalate names

def summaryLine (title : String) (names : List String) : List String :=
  if names.isEmpty then [] else ["  " ++ title ++ ": " ++ commaList names]

def Effect.summary (e : Effect) : String :=
  "\n".intercalate <|
    [e.kind.name ++ " " ++ e.id]
      ++ summaryLine "Depends on" (e.dependencies.map (·.name))
      ++ summaryLine "Sets" e.setters
      ++ summaryLine "Writes refs" e.refWrites
      ++ summaryLine "Calls out" e.externalCalls

/-- A callback goes by its name, or by its id when it has none. -/
def Callback.summary (c : Callback) : String :=
  "\n".intercalate <|
    ["callback " ++ (c.name.filter (· != "")).getD c.id]
      ++ summaryLine "Depends on" c.dependencies
      ++ summaryLine "Sets" c.setters

namespace Facts

def overview (f : Facts) : String :=
  if f.errors.isEmpty then
    let name := (f.componentName.filter (· != "")).getD "<none>"
    s!"Component {name}: {f.hooks.length} hooks, {f.effects.length} effects, "
      ++ s!"{f.callbacks.length} callbacks, {f.locals.length} variables, "
      ++ s!"{f.elements.length} elements"
  else
    "Analysis failed: " ++ "; ".intercalate f.errors

def hookKinds (f : Facts) : List String :=
  distinct (f.hooks.map (·.kind.name))

def hookNames (f : Facts) (kind : String) : List String :=
  (f.hooks.filter (·.kind.name == kind)).map (·.name)

def kindSummary (kind : String) (names : List String) : String × String :=
  (kind, kind ++ ": " ++ commaList names)

/-- Variables and props are listed after the hooks, and only where there are any. -/
def kindSummaries (f : Facts) : List (String × String) :=
  f.hookKinds.map (fun kind => kindSummary kind (f.hookNames kind))
    ++ (if f.locals.isEmpty then [] else [kindSummary "variable" (f.locals.map (·.name))])
    ++ (if f.props.isEmpty then [] else [kindSummary "prop" f.props])

def summaries (f : Facts) : Summaries where
  overview := f.overview
  perKind := ⟨f.kindSummaries⟩
  perEffect := Table.setAll {} <|
    f.effects.map (fun e => (e.id, e.summary)) ++ f.callbacks.map (fun c => (c.id, c.summary))

end Facts

end RenderFlow
