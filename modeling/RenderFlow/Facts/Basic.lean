import RenderFlow.Syntax.Position

/-!
What is known about one component file: its hooks, effects, callbacks, plain variables, markup
elements and exports. Records refer to one another by name only.
-/
namespace RenderFlow

inductive HookKind where
  | localState
  | ref
  | reducer
  | effect
  | layoutEffect
  | memoizedCallback
  | memoizedValue
  | externalStore
  | asyncQuery
  | unclassified
deriving DecidableEq, Repr

namespace HookKind

def name : HookKind → String
  | .localState => "local_state"
  | .ref => "ref"
  | .reducer => "reducer"
  | .effect => "effect"
  | .layoutEffect => "layout_effect"
  | .memoizedCallback => "memoized_callback"
  | .memoizedValue => "memoized_value"
  | .externalStore => "external_store"
  | .asyncQuery => "async_query"
  | .unclassified => "unclassified"

def all : List HookKind :=
  [.localState, .ref, .reducer, .effect, .layoutEffect, .memoizedCallback, .memoizedValue,
    .externalStore, .asyncQuery, .unclassified]

def ofName? (s : String) : Option HookKind :=
  all.find? (·.name == s)

/-- Stores and queries hold state that lives outside the component. -/
def isGlobal : HookKind → Bool
  | .externalStore | .asyncQuery => true
  | _ => false

end HookKind

inductive Scope where
  | component
  | global
  | external
deriving DecidableEq, Repr

namespace Scope

def name : Scope → String
  | .component => "local"
  | .global => "global"
  | .external => "external"

def ofName? (s : String) : Option Scope :=
  [component, global, external].find? (·.name == s)

end Scope

inductive EffectKind where
  | effect
  | layoutEffect
deriving DecidableEq, Repr

namespace EffectKind

def name : EffectKind → String
  | .effect => "effect"
  | .layoutEffect => "layout_effect"

def ofName? (s : String) : Option EffectKind :=
  [effect, layoutEffect].find? (·.name == s)

end EffectKind

def HookKind.effectKind? : HookKind → Option EffectKind
  | .effect => some .effect
  | .layoutEffect => some .layoutEffect
  | _ => none

inductive BindingPattern where
  | identifier
  | array
  | object
deriving DecidableEq, Repr

namespace BindingPattern

def name : BindingPattern → String
  | .identifier => "identifier"
  | .array => "array"
  | .object => "object"

def ofName? (s : String) : Option BindingPattern :=
  [identifier, array, object].find? (·.name == s)

end BindingPattern

/-- How a hook's name came about: `index` is its place in an array pattern. -/
structure HookOrigin where
  importSource : Option String := none
  callee : Option String := none
  pattern : BindingPattern := .identifier
  index : Int := 0
deriving DecidableEq, Repr

structure Hook where
  id : String
  name : String
  kind : HookKind
  scope : Scope := .component
  definedAt : Option Position := none
  origin : HookOrigin := {}
deriving DecidableEq, Repr

structure EffectDependency where
  name : String
  isGlobal : Bool := false
deriving DecidableEq, Repr

structure Effect where
  id : String
  kind : EffectKind
  dependencies : List EffectDependency := []
  setters : List String := []
  refReads : List String := []
  refWrites : List String := []
  externalCalls : List String := []
  definedAt : Option Position := none
deriving DecidableEq, Repr

structure Callback where
  id : String
  name : Option String := none
  dependencies : List String := []
  setters : List String := []
  externalCalls : List String := []
  definedAt : Option Position := none
deriving DecidableEq, Repr

/-- A declared name that is neither a hook nor a function. -/
structure Variable where
  id : String
  name : String
  dependencies : List String := []
  definedAt : Option Position := none
deriving DecidableEq, Repr

structure Element where
  id : String
  component : String
  depth : Int
  parentId : Option String := none
  props : List String := []
  refProps : List String := []
  definedAt : Option Position := none
deriving DecidableEq, Repr

structure Exports where
  default : Option String := none
  components : List String := []
deriving DecidableEq, Repr

structure Facts where
  source : String
  fileName : Option String := none
  componentName : Option String := none
  props : List String := []
  hooks : List Hook := []
  effects : List Effect := []
  callbacks : List Callback := []
  locals : List Variable := []
  elements : List Element := []
  exports : Exports := {}
  errors : List String := []
  calledNames : List String := []
deriving DecidableEq, Repr

end RenderFlow
