import RenderFlow.Facts.Basic
import RenderFlow.Json.Reading
import RenderFlow.Summary

/-!
Facts as JSON records. Every field is written, in the order of its declaration; in reading, the
fields with a default may be missing.
-/
namespace RenderFlow

open Record

namespace Position

def toJson (p : Position) : Json :=
  .object [("line", .int p.line), ("column", .int p.column)]

def ofFields (fields : Fields) : Except RecordError Position := do
  let line ← required fields "line" Json.asWhole?
  let column ← required fields "column" Json.asWhole?
  return ⟨line, column⟩

def toJson? : Option Position → Json
  | some p => p.toJson
  | none => .null

def definedAt (fields : Fields) : Except RecordError (Option Position) :=
  optional fields "defined_at" (Json.asNullable? (nested ofFields)) none

end Position

def Record.names (fields : Fields) (name : String) : Except RecordError (List String) :=
  optional fields name (Json.asList? Json.asText?) []

def Record.nullableText (fields : Fields) (name : String) : Except RecordError (Option String) :=
  optional fields name (Json.asNullable? Json.asText?) none

namespace HookOrigin

def toJson (o : HookOrigin) : Json :=
  .object [
    ("import_source", .ofText? o.importSource),
    ("callee", .ofText? o.callee),
    ("pattern", .text o.pattern.name),
    ("position", .int o.index)]

def ofFields (fields : Fields) : Except RecordError HookOrigin := do
  let importSource ← nullableText fields "import_source"
  let callee ← nullableText fields "callee"
  let pattern ← optional fields "pattern" (Json.asNamed? BindingPattern.ofName?) .identifier
  let index ← optional fields "position" Json.asWhole? 0
  return ⟨importSource, callee, pattern, index⟩

end HookOrigin

namespace Hook

def toJson (h : Hook) : Json :=
  .object [
    ("id", .text h.id),
    ("name", .text h.name),
    ("kind", .text h.kind.name),
    ("scope", .text h.scope.name),
    ("defined_at", Position.toJson? h.definedAt),
    ("meta", h.origin.toJson)]

def ofFields (fields : Fields) : Except RecordError Hook := do
  let id ← required fields "id" Json.asText?
  let name ← required fields "name" Json.asText?
  let kind ← required fields "kind" (Json.asNamed? HookKind.ofName?)
  let scope ← optional fields "scope" (Json.asNamed? Scope.ofName?) .component
  let definedAt ← Position.definedAt fields
  let origin ← optional fields "meta" (nested HookOrigin.ofFields) {}
  return ⟨id, name, kind, scope, definedAt, origin⟩

end Hook

namespace EffectDependency

def toJson (d : EffectDependency) : Json :=
  .object [("name", .text d.name), ("is_global", .bool d.isGlobal)]

def ofFields (fields : Fields) : Except RecordError EffectDependency := do
  let name ← required fields "name" Json.asText?
  let isGlobal ← optional fields "is_global" Json.asTruth? false
  return ⟨name, isGlobal⟩

end EffectDependency

namespace Effect

def toFields (e : Effect) : Fields := [
  ("id", .text e.id),
  ("kind", .text e.kind.name),
  ("dependencies", .list (e.dependencies.map (·.toJson))),
  ("setters", .ofTexts e.setters),
  ("ref_reads", .ofTexts e.refReads),
  ("ref_writes", .ofTexts e.refWrites),
  ("external_calls", .ofTexts e.externalCalls),
  ("defined_at", Position.toJson? e.definedAt)]

def toJson (e : Effect) : Json :=
  .object e.toFields

def ofFields (fields : Fields) : Except RecordError Effect := do
  let id ← required fields "id" Json.asText?
  let kind ← required fields "kind" (Json.asNamed? EffectKind.ofName?)
  let dependencies ←
    optional fields "dependencies" (Json.asList? (nested EffectDependency.ofFields)) []
  let setters ← names fields "setters"
  let refReads ← names fields "ref_reads"
  let refWrites ← names fields "ref_writes"
  let externalCalls ← names fields "external_calls"
  let definedAt ← Position.definedAt fields
  return ⟨id, kind, dependencies, setters, refReads, refWrites, externalCalls, definedAt⟩

end Effect

namespace Callback

def toFields (c : Callback) : Fields := [
  ("id", .text c.id),
  ("name", .ofText? c.name),
  ("dependencies", .ofTexts c.dependencies),
  ("setters", .ofTexts c.setters),
  ("external_calls", .ofTexts c.externalCalls),
  ("defined_at", Position.toJson? c.definedAt)]

def toJson (c : Callback) : Json :=
  .object c.toFields

def ofFields (fields : Fields) : Except RecordError Callback := do
  let id ← required fields "id" Json.asText?
  let name ← nullableText fields "name"
  let dependencies ← names fields "dependencies"
  let setters ← names fields "setters"
  let externalCalls ← names fields "external_calls"
  let definedAt ← Position.definedAt fields
  return ⟨id, name, dependencies, setters, externalCalls, definedAt⟩

end Callback

namespace Variable

def toJson (v : Variable) : Json :=
  .object [
    ("id", .text v.id),
    ("name", .text v.name),
    ("dependencies", .ofTexts v.dependencies),
    ("defined_at", Position.toJson? v.definedAt)]

def ofFields (fields : Fields) : Except RecordError Variable := do
  let id ← required fields "id" Json.asText?
  let name ← required fields "name" Json.asText?
  let dependencies ← names fields "dependencies"
  let definedAt ← Position.definedAt fields
  return ⟨id, name, dependencies, definedAt⟩

end Variable

namespace Element

def toJson (e : Element) : Json :=
  .object [
    ("id", .text e.id),
    ("component", .text e.component),
    ("depth", .int e.depth),
    ("parent_id", .ofText? e.parentId),
    ("props", .ofTexts e.props),
    ("ref_props", .ofTexts e.refProps),
    ("defined_at", Position.toJson? e.definedAt)]

def ofFields (fields : Fields) : Except RecordError Element := do
  let id ← required fields "id" Json.asText?
  let component ← required fields "component" Json.asText?
  let depth ← required fields "depth" Json.asWhole?
  let parentId ← nullableText fields "parent_id"
  let props ← names fields "props"
  let refProps ← names fields "ref_props"
  let definedAt ← Position.definedAt fields
  return ⟨id, component, depth, parentId, props, refProps, definedAt⟩

end Element

namespace Exports

def toJson (e : Exports) : Json :=
  .object [
    ("default_export", .ofText? e.default),
    ("exported_components", .ofTexts e.components)]

def ofFields (fields : Fields) : Except RecordError Exports := do
  let default ← nullableText fields "default_export"
  let components ← names fields "exported_components"
  return ⟨default, components⟩

end Exports

namespace Facts

def toJson (f : Facts) : Json :=
  .object [
    ("source", .text f.source),
    ("file_name", .ofText? f.fileName),
    ("component_name", .ofText? f.componentName),
    ("props", .ofTexts f.props),
    ("hooks", .list (f.hooks.map (·.toJson))),
    ("effects", .list (f.effects.map (·.toJson))),
    ("callbacks", .list (f.callbacks.map (·.toJson))),
    ("variables", .list (f.locals.map (·.toJson))),
    ("elements", .list (f.elements.map (·.toJson))),
    ("meta", f.exports.toJson),
    ("errors", .ofTexts f.errors),
    ("called_names", .ofTexts f.calledNames)]

def records (fields : Fields) (name : String) (read : Fields → Except RecordError α) :
    Except RecordError (List α) :=
  optional fields name (Json.asList? (nested read)) []

def ofFields (fields : Fields) : Except RecordError Facts := do
  let source ← required fields "source" Json.asText?
  let fileName ← nullableText fields "file_name"
  let componentName ← nullableText fields "component_name"
  let props ← names fields "props"
  let hooks ← records fields "hooks" Hook.ofFields
  let effects ← records fields "effects" Effect.ofFields
  let callbacks ← records fields "callbacks" Callback.ofFields
  let locals ← records fields "variables" Variable.ofFields
  let elements ← records fields "elements" Element.ofFields
  let exports ← optional fields "meta" (nested Exports.ofFields) {}
  let errors ← names fields "errors"
  let calledNames ← names fields "called_names"
  return { source, fileName, componentName, props, hooks, effects, callbacks, locals, elements,
           exports, errors, calledNames }

def ofJson : Json → Except RecordError Facts :=
  reader ofFields

end Facts

namespace Summaries

def tableJson (t : Table String) : Json :=
  .object (t.entries.map fun (key, value) => (key, .text value))

def toJson (s : Summaries) : Json :=
  .object [
    ("global_overview", .text s.overview),
    ("per_kind", tableJson s.perKind),
    ("per_effect", tableJson s.perEffect)]

end Summaries

end RenderFlow
