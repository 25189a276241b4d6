/-!
The paths of the service. A path is compared as it stands, without any query, apart from one line
feed that may end it.
-/
namespace RenderFlow.Service

inductive Route where
  | analyze
  | layout
deriving DecidableEq, Repr

namespace Route

def path : Route → String
  | .analyze => "/analyze"
  | .layout => "/layout"

def pages : List String :=
  ["/openapi.json", "/docs", "/docs/oauth2-redirect", "/redoc"]

end Route

/-- What a path leads to: a route, a page, either of them but for the slashes at its end, or
nothing. -/
inductive Target where
  | route (target : Route)
  | page
  | slashed
  | unknown
deriving DecidableEq, Repr

namespace Target

def withoutLineFeed (path : String) : String :=
  let cs := path.toList
  if cs.getLast? == some '\n' then String.ofList cs.dropLast else path

def known? (path : String) : Option Target :=
  match [Route.analyze, .layout].find? (·.path == withoutLineFeed path) with
  | some found => some (.route found)
  | none => if Route.pages.contains (withoutLineFeed path) then some .page else none

/-- The path with the slashes at its end taken off or, where it has none, with one put on. -/
def otherSlash (path : String) : String :=
  match path.toList.reverse with
  | '/' :: rest => String.ofList (rest.dropWhile (· == '/')).reverse
  | _ => path ++ "/"

def ofPath (path : String) : Target :=
  match known? path with
  | some target => target
  | none => if (known? (otherSlash path)).isSome then .slashed else .unknown

end Target

end RenderFlow.Service
