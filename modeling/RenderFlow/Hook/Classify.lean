import RenderFlow.Facts.Basic
import RenderFlow.Text.Search

/-!
The kind of a hook by the name of the function called and, where that is ambiguous, by the module
that the name was imported from.
-/
namespace RenderFlow.HookKind

def ofFrameworkName? : String → Option HookKind
  | "useState" => some .localState
  | "useRef" => some .ref
  | "useReducer" => some .reducer
  | "useEffect" => some .effect
  | "useLayoutEffect" => some .layoutEffect
  | "useCallback" => some .memoizedCallback
  | "useMemo" => some .memoizedValue
  | _ => none

def storeMarkers : List String := ["zustand"]

def queryMarkers : List String := ["reactQuery", "@tanstack/react-query"]

def isStoreName (name : String) : Bool :=
  Text.hasPrefix name "use" && Text.hasSuffix name "Store"

/-- Letter case does not matter here. -/
def isQueryName (name : String) : Bool :=
  ["mutation", "query"].any (Text.hasInfix (Text.lower name))

def comesFrom (source : Option String) (markers : List String) : Bool :=
  source.any fun origin => markers.any (Text.hasInfix origin)

/-- The framework's own hooks come first, then stores, then queries. -/
def classify (callee : String) (source : Option String) : HookKind :=
  match ofFrameworkName? callee with
  | some kind => kind
  | none =>
    if comesFrom source storeMarkers && isStoreName callee then .externalStore
    else if comesFrom source queryMarkers && isQueryName callee then .asyncQuery
    else .unclassified

end RenderFlow.HookKind
